/-!
# Chinese phrases

The phrases shown for opcodes and menu values, and for the nodes and edges that a diagram adds,
in Chinese. Parameters stand as `%1`, `%2`, and so on.
-/

namespace ScriptChart.Phrase

/-- The Chinese phrases by their keys. -/
def chinesePhrases : List (String × String) :=
  [("FLOWCHART_END", "结束"),
   ("FLOWCHART_CONTINUE", "继续循环"),
   ("FLOWCHART_CONDITION_END", "条件结束"),
   ("FLOWCHART_LOOP_END", "循环结束"),
   ("FLOWCHART_YES", "是"),
   ("FLOWCHART_NO", "否"),
   ("FLOWCHART_TRUE", "成立"),
   ("FLOWCHART_FALSE", "不成立"),
   ("FLOWCHART_RUNAWAY", "无限循环..."),
   ("FLOWCHART_CIRCULAR_REFERENCE", "循环引用"),
   ("FLOWCHART_IF_FALLBACK", "如果 %1"),
   ("FLOWCHART_UNTITLED_PROJECT", "未命名项目"),
   ("_MOUSE_", "鼠标指针"),
   ("_RANDOM_", "随机位置"),
   ("_MYSELF_", "自己"),
   ("_EDGE_", "舞台边缘"),
   ("_STAGE_", "舞台"),
   ("LOOKS_GOTOFRONTBACK_FRONT", "最前面"),
   ("LOOKS_GOTOFRONTBACK_BACK", "最后面"),
   ("LOOKS_GOFORWARDBACKWARDLAYERS_FORWARD", "前移"),
   ("LOOKS_GOFORWARDBACKWARDLAYERS_BACKWARD", "后移"),
   ("MOTION_SETROTATIONSTYLE_LEFT-RIGHT", "左右翻转"),
   ("MOTION_SETROTATIONSTYLE_DON'T ROTATE", "不可旋转"),
   ("MOTION_SETROTATIONSTYLE_ALL AROUND", "任意旋转"),
   ("CONTROL_STOP_ALL", "全部脚本"),
   ("CONTROL_STOP_THIS SCRIPT", "这个脚本"),
   ("CONTROL_STOP_OTHER SCRIPTS IN SPRITE", "该角色的其他脚本"),
   ("MOTION_MOVESTEPS", "移动 %1 步"),
   ("MOTION_TURNRIGHT", "右转 %1 度"),
   ("MOTION_TURNLEFT", "左转 %1 度"),
   ("MOTION_GOTO", "移到 %1"),
   ("MOTION_GOTOXY", "移到 x: %1 y: %2"),
   ("MOTION_GLIDETO", "在 %1 秒内滑行到 %2"),
   ("MOTION_GLIDESECSTOXY", "在 %1 秒内滑行到 x: %2 y: %3"),
   ("MOTION_POINTINDIRECTION", "面向 %1 方向"),
   ("MOTION_POINTTOWARDS", "面向 %1"),
   ("MOTION_CHANGEXBY", "将x坐标增加 %1"),
   ("MOTION_SETX", "将x坐标设为 %1"),
   ("MOTION_CHANGEYBY", "将y坐标增加 %1"),
   ("MOTION_SETY", "将y坐标设为 %1"),
   ("MOTION_IFONEDGEBOUNCE", "碰到边缘就反弹"),
   ("MOTION_SETROTATIONSTYLE", "将旋转方式设为 %1"),
   ("MOTION_XPOSITION", "x 坐标"),
   ("MOTION_YPOSITION", "y 坐标"),
   ("MOTION_DIRECTION", "方向"),
   ("LOOKS_SAYFORSECS", "说 %1 %2 秒"),
   ("LOOKS_SAY", "说 %1"),
   ("LOOKS_THINKFORSECS", "思考 %1 %2 秒"),
   ("LOOKS_THINK", "思考 %1"),
   ("LOOKS_SWITCHCOSTUMETO", "换成 %1 造型"),
   ("LOOKS_NEXTCOSTUME", "下一个造型"),
   ("LOOKS_SWITCHBACKDROPTO", "换成 %1 背景"),
   ("LOOKS_SWITCHBACKDROPTOANDWAIT", "换成 %1 背景并等待"),
   ("LOOKS_NEXTBACKDROP", "下一个背景"),
   ("LOOKS_CHANGESIZEBY", "将大小增加 %1"),
   ("LOOKS_SETSIZETO", "将大小设为 %1"),
   ("LOOKS_CHANGEEFFECTBY", "将 %1 特效增加 %2"),
   ("LOOKS_SETEFFECTTO", "将 %1 特效设定为 %2"),
   ("LOOKS_CLEARGRAPHICEFFECTS", "清除图形特效"),
   ("LOOKS_SHOW", "显示"),
   ("LOOKS_HIDE", "隐藏"),
   ("LOOKS_GOTOFRONTBACK", "移到 %1"),
   ("LOOKS_GOFORWARDBACKWARDLAYERS", "%1 %2 层"),
   ("LOOKS_COSTUMENUMBERNAME", "造型 %1"),
   ("LOOKS_BACKDROPNUMBERNAME", "背景 %1"),
   ("LOOKS_SIZE", "大小"),
   ("SOUND_PLAYUNTILDONE", "播放声音 %1 等待播完"),
   ("SOUND_PLAY", "播放声音 %1"),
   ("SOUND_STOPALLSOUNDS", "停止所有声音"),
   ("SOUND_CHANGEVOLUMEBY", "将音量增加 %1"),
   ("SOUND_SETVOLUMETO", "将音量设为 %1%"),
   ("SOUND_VOLUME", "音量"),
   ("EVENT_WHENFLAGCLICKED", "当绿旗被点击"),
   ("EVENT_WHENTHISSPRITECLICKED", "当角色被点击"),
   ("EVENT_WHENSTAGECLICKED", "当舞台被点击"),
   ("EVENT_WHENKEYPRESSED", "当按下 %1 键"),
   ("EVENT_WHENBACKDROPSWITCHESTO", "当背景换成 %1"),
   ("EVENT_WHENGREATERTHAN", "当 %1 > %2"),
   ("EVENT_WHENBROADCASTRECEIVED", "当接收到 %1"),
   ("EVENT_BROADCAST", "广播 %1"),
   ("EVENT_BROADCASTANDWAIT", "广播 %1 并等待"),
   ("CONTROL_WAIT", "等待 %1 秒"),
   ("CONTROL_REPEAT", "重复执行 %1 次"),
   ("CONTROL_FOREVER", "重复执行"),
   ("CONTROL_IF", "如果 %1 那么"),
   ("CONTROL_IF_ELSE", "如果 %1 那么 否则"),
   ("CONTROL_WAIT_UNTIL", "等待 %1"),
   ("CONTROL_REPEAT_UNTIL", "重复执行直到 %1"),
   ("CONTROL_STOP", "停止 %1"),
   ("CONTROL_START_AS_CLONE", "当作为克隆体启动时"),
   ("CONTROL_CREATE_CLONE_OF", "克隆 %1"),
   ("CONTROL_DELETE_THIS_CLONE", "删除此克隆体"),
   ("SENSING_TOUCHINGOBJECT", "碰到 %1 ?"),
   ("SENSING_TOUCHINGCOLOR", "碰到颜色 %1 ?"),
   ("SENSING_DISTANCETO", "到 %1 的距离"),
   ("SENSING_ASKANDWAIT", "询问 %1 并等待"),
   ("SENSING_ANSWER", "回答"),
   ("SENSING_KEYPRESSED", "按下 %1 键?"),
   ("SENSING_MOUSEDOWN", "按下鼠标?"),
   ("SENSING_MOUSEX", "鼠标的x坐标"),
   ("SENSING_MOUSEY", "鼠标的y坐标"),
   ("SENSING_LOUDNESS", "响度"),
   ("SENSING_TIMER", "计时器"),
   ("SENSING_RESETTIMER", "计时器归零"),
   ("SENSING_OF", "%2 的 %1"),
   ("SENSING_CURRENT", "当前时间的 %1"),
   ("SENSING_DAYSSINCE2000", "2000年至今的天数"),
   ("SENSING_USERNAME", "用户名"),
   ("OPERATOR_ADD", "%1 + %2"),
   ("OPERATOR_SUBTRACT", "%1 - %2"),
   ("OPERATOR_MULTIPLY", "%1 * %2"),
   ("OPERATOR_DIVIDE", "%1 / %2"),
   ("OPERATOR_RANDOM", "在 %1 和 %2 之间取随机数"),
   ("OPERATOR_GT", "%1 > %2"),
   ("OPERATOR_LT", "%1 < %2"),
   ("OPERATOR_EQUALS", "%1 = %2"),
   ("OPERATOR_AND", "%1 与 %2"),
   ("OPERATOR_OR", "%1 或 %2"),
   ("OPERATOR_NOT", "%1 不成立"),
   ("OPERATOR_JOIN", "连接 %1 和 %2"),
   ("OPERATOR_LETTER_OF", "%2 的第 %1 个字符"),
   ("OPERATOR_LENGTH", "%1 的字符数"),
   ("OPERATOR_CONTAINS", "%1 包含 %2 ?"),
   ("OPERATOR_MOD", "%1 除以 %2 的余数"),
   ("OPERATOR_ROUND", "四舍五入 %1"),
   ("OPERATOR_MATHOP", "%1 %2"),
   ("DATA_SETVARIABLETO", "将 %1 设为 %2"),
   ("DATA_CHANGEVARIABLEBY", "将 %1 增加 %2"),
   ("DATA_SHOWVARIABLE", "显示变量 %1"),
   ("DATA_HIDEVARIABLE", "隐藏变量 %1"),
   ("DATA_ADDTOLIST", "将 %2 加入 %1"),
   ("DATA_DELETEOFLIST", "删除 %1 的第 %2 项"),
   ("DATA_DELETEALLOFLIST", "删除 %1 的全部项目"),
   ("DATA_INSERTATLIST", "在 %1 的第 %3 项前插入 %2"),
   ("DATA_REPLACEITEMOFLIST", "将 %1 的第 %2 项替换为 %3"),
   ("DATA_ITEMOFLIST", "%1 的第 %2 项"),
   ("DATA_LENGTHOFLIST", "%1 的项目数"),
   ("DATA_LISTCONTAINSITEM", "%1 包含 %2 ?"),
   ("PEN_CLEAR", "全部擦除"),
   ("PEN_STAMP", "图章"),
   ("PEN_PENDOWN", "落笔"),
   ("PEN_PENUP", "抬笔"),
   ("PEN_SETPENCOLORTOCOLOR", "将笔的颜色设为 %1"),
   ("PEN_CHANGEPENSIZEBY", "将笔的粗细增加 %1"),
   ("PEN_SETPENSIZETO", "将笔的粗细设为 %1"),
   ("PROCEDURES_DEFINITION", "定义 %1")]

end ScriptChart.Phrase
