/-!
# English phrases

The phrases shown for opcodes and menu values, and for the nodes and edges that a diagram adds,
in English. Parameters stand as `%1`, `%2`, and so on.
-/

namespace ScriptChart.Phrase

/-- The English phrases by their keys. -/
def englishPhrases : List (String × String) :=
  [("FLOWCHART_END", "end"),
   ("FLOWCHART_CONTINUE", "repeat"),
   ("FLOWCHART_CONDITION_END", "end if"),
   ("FLOWCHART_LOOP_END", "end repeat"),
   ("FLOWCHART_YES", "yes"),
   ("FLOWCHART_NO", "no"),
   ("FLOWCHART_TRUE", "true"),
   ("FLOWCHART_FALSE", "false"),
   ("FLOWCHART_RUNAWAY", "runaway loop..."),
   ("FLOWCHART_CIRCULAR_REFERENCE", "circular reference"),
   ("FLOWCHART_IF_FALLBACK", "if %1"),
   ("FLOWCHART_UNTITLED_PROJECT", "untitled project"),
   ("_MOUSE_", "mouse-pointer"),
   ("_RANDOM_", "random position"),
   ("_MYSELF_", "myself"),
   ("_EDGE_", "edge"),
   ("_STAGE_", "Stage"),
   ("MOTION_MOVESTEPS", "move %1 steps"),
   ("MOTION_TURNRIGHT", "turn right %1 degrees"),
   ("MOTION_TURNLEFT", "turn left %1 degrees"),
   ("MOTION_GOTO", "go to %1"),
   ("MOTION_GOTOXY", "go to x: %1 y: %2"),
   ("MOTION_GLIDETO", "glide %1 secs to %2"),
   ("MOTION_GLIDESECSTOXY", "glide %1 secs to x: %2 y: %3"),
   ("MOTION_POINTINDIRECTION", "point in direction %1"),
   ("MOTION_POINTTOWARDS", "point towards %1"),
   ("MOTION_CHANGEXBY", "change x by %1"),
   ("MOTION_SETX", "set x to %1"),
   ("MOTION_CHANGEYBY", "change y by %1"),
   ("MOTION_SETY", "set y to %1"),
   ("MOTION_IFONEDGEBOUNCE", "if on edge, bounce"),
   ("MOTION_SETROTATIONSTYLE", "set rotation style %1"),
   ("MOTION_XPOSITION", "x position"),
   ("MOTION_YPOSITION", "y position"),
   ("MOTION_DIRECTION", "direction"),
   ("LOOKS_SAYFORSECS", "say %1 for %2 seconds"),
   ("LOOKS_SAY", "say %1"),
   ("LOOKS_THINKFORSECS", "think %1 for %2 seconds"),
   ("LOOKS_THINK", "think %1"),
   ("LOOKS_SWITCHCOSTUMETO", "switch costume to %1"),
   ("LOOKS_NEXTCOSTUME", "next costume"),
   ("LOOKS_SWITCHBACKDROPTO", "switch backdrop to %1"),
   ("LOOKS_SWITCHBACKDROPTOANDWAIT", "switch backdrop to %1 and wait"),
   ("LOOKS_NEXTBACKDROP", "next backdrop"),
   ("LOOKS_CHANGESIZEBY", "change size by %1"),
   ("LOOKS_SETSIZETO", "set size to %1 %"),
   ("LOOKS_CHANGEEFFECTBY", "change %1 effect by %2"),
   ("LOOKS_SETEFFECTTO", "set %1 effect to %2"),
   ("LOOKS_CLEARGRAPHICEFFECTS", "clear graphic effects"),
   ("LOOKS_SHOW", "show"),
   ("LOOKS_HIDE", "hide"),
   ("LOOKS_GOTOFRONTBACK", "go to %1 layer"),
   ("LOOKS_GOFORWARDBACKWARDLAYERS", "go %1 %2 layers"),
   ("LOOKS_COSTUMENUMBERNAME", "costume %1"),
   ("LOOKS_BACKDROPNUMBERNAME", "backdrop %1"),
   ("LOOKS_SIZE", "size"),
   ("SOUND_PLAYUNTILDONE", "play sound %1 until done"),
   ("SOUND_PLAY", "start sound %1"),
   ("SOUND_STOPALLSOUNDS", "stop all sounds"),
   ("SOUND_CHANGEVOLUMEBY", "change volume by %1"),
   ("SOUND_SETVOLUMETO", "set volume to %1%"),
   ("SOUND_VOLUME", "volume"),
   ("EVENT_WHENFLAGCLICKED", "when green flag clicked"),
   ("EVENT_WHENTHISSPRITECLICKED", "when this sprite clicked"),
   ("EVENT_WHENSTAGECLICKED", "when stage clicked"),
   ("EVENT_WHENKEYPRESSED", "when %1 key pressed"),
   ("EVENT_WHENBACKDROPSWITCHESTO", "when backdrop switches to %1"),
   ("EVENT_WHENGREATERTHAN", "when %1 > %2"),
   ("EVENT_WHENBROADCASTRECEIVED", "when I receive %1"),
   ("EVENT_BROADCAST", "broadcast %1"),
   ("EVENT_BROADCASTANDWAIT", "broadcast %1 and wait"),
   ("CONTROL_WAIT", "wait %1 seconds"),
   ("CONTROL_REPEAT", "repeat %1"),
   ("CONTROL_FOREVER", "forever"),
   ("CONTROL_IF", "if %1 then"),
   ("CONTROL_IF_ELSE", "if %1 then else"),
   ("CONTROL_WAIT_UNTIL", "wait until %1"),
   ("CONTROL_REPEAT_UNTIL", "repeat until %1"),
   ("CONTROL_STOP", "stop %1"),
   ("CONTROL_START_AS_CLONE", "when I start as a clone"),
   ("CONTROL_CREATE_CLONE_OF", "create clone of %1"),
   ("CONTROL_DELETE_THIS_CLONE", "delete this clone"),
   ("SENSING_TOUCHINGOBJECT", "touching %1 ?"),
   ("SENSING_TOUCHINGCOLOR", "touching color %1 ?"),
   ("SENSING_DISTANCETO", "distance to %1"),
   ("SENSING_ASKANDWAIT", "ask %1 and wait"),
   ("SENSING_ANSWER", "answer"),
   ("SENSING_KEYPRESSED", "key %1 pressed?"),
   ("SENSING_MOUSEDOWN", "mouse down?"),
   ("SENSING_MOUSEX", "mouse x"),
   ("SENSING_MOUSEY", "mouse y"),
   ("SENSING_LOUDNESS", "loudness"),
   ("SENSING_TIMER", "timer"),
   ("SENSING_RESETTIMER", "reset timer"),
   ("SENSING_OF", "%1 of %2"),
   ("SENSING_CURRENT", "current %1"),
   ("SENSING_DAYSSINCE2000", "days since 2000"),
   ("SENSING_USERNAME", "username"),
   ("OPERATOR_ADD", "%1 + %2"),
   ("OPERATOR_SUBTRACT", "%1 - %2"),
   ("OPERATOR_MULTIPLY", "%1 * %2"),
   ("OPERATOR_DIVIDE", "%1 / %2"),
   ("OPERATOR_RANDOM", "pick random %1 to %2"),
   ("OPERATOR_GT", "%1 > %2"),
   ("OPERATOR_LT", "%1 < %2"),
   ("OPERATOR_EQUALS", "%1 = %2"),
   ("OPERATOR_AND", "%1 and %2"),
   ("OPERATOR_OR", "%1 or %2"),
   ("OPERATOR_NOT", "not %1"),
   ("OPERATOR_JOIN", "join %1 %2"),
   ("OPERATOR_LETTER_OF", "letter %1 of %2"),
   ("OPERATOR_LENGTH", "length of %1"),
   ("OPERATOR_CONTAINS", "%1 contains %2 ?"),
   ("OPERATOR_MOD", "%1 mod %2"),
   ("OPERATOR_ROUND", "round %1"),
   ("OPERATOR_MATHOP", "%1 of %2"),
   ("DATA_SETVARIABLETO", "set %1 to %2"),
   ("DATA_CHANGEVARIABLEBY", "change %1 by %2"),
   ("DATA_SHOWVARIABLE", "show variable %1"),
   ("DATA_HIDEVARIABLE", "hide variable %1"),
   ("DATA_ADDTOLIST", "add %2 to %1"),
   ("DATA_DELETEOFLIST", "delete %2 of %1"),
   ("DATA_DELETEALLOFLIST", "delete all of %1"),
   ("DATA_INSERTATLIST", "insert %2 at %3 of %1"),
   ("DATA_REPLACEITEMOFLIST", "replace item %2 of %1 with %3"),
   ("DATA_ITEMOFLIST", "item %2 of %1"),
   ("DATA_LENGTHOFLIST", "length of %1"),
   ("DATA_LISTCONTAINSITEM", "%1 contains %2 ?"),
   ("PEN_CLEAR", "erase all"),
   ("PEN_STAMP", "stamp"),
   ("PEN_PENDOWN", "pen down"),
   ("PEN_PENUP", "pen up"),
   ("PEN_SETPENCOLORTOCOLOR", "set pen color to %1"),
   ("PEN_CHANGEPENSIZEBY", "change pen size by %1"),
   ("PEN_SETPENSIZETO", "set pen size to %1"),
   ("PROCEDURES_DEFINITION", "define %1")]

end ScriptChart.Phrase
