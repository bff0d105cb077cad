import RegisterMachine.Log.Level

/-!
# Log lines

The log goes to the standard error and never carries a program's output. An
entry is what there is to say; a line is an entry together with the decision
whether it shows the time, which an invocation may change half way. The
clock's text is supplied when the line is written, and so is the choice of
colors.
-/

namespace RegisterMachine.Log

/-- Something to be logged. -/
structure Entry where
  level : Level
  message : String
  deriving DecidableEq, Repr, Inhabited

/-- An entry on its way to the log. -/
structure Line where
  entry : Entry
  /-- Whether the line starts with the time of day. -/
  stamped : Bool
  deriving DecidableEq, Repr, Inhabited

/-- The escape sequence that gives a terminal back its plain look. -/
def resetColors : String :=
  "\x1b[0m"

/-- The escape sequence that sets the look of a level: warnings are bold yellow, errors bold red. -/
def Level.color : Level → String
  | .info => resetColors
  | .warn => resetColors ++ "\x1b[1m\x1b[33m"
  | .error => resetColors ++ "\x1b[1m\x1b[31m"

/-- A terminal gets colors when it names itself as anything but `dumb`, unless the user has set the
variable that forbids them, be it to nothing. -/
def usesColors (terminal noColor : Option String) : Bool :=
  terminal.isSome && terminal != some "dumb" && noColor.isNone

namespace Line

/-- The line without colors: the time, the level in its brackets, the message. -/
def text (clock : String) (line : Line) : String :=
  (if line.stamped then clock ++ " " else "")
    ++ "[" ++ Text.pad .left 5 line.entry.level.name ++ "] " ++ line.entry.message ++ "\n"

/-- What is written to the standard error for a line. -/
def render (colors : Bool) (clock : String) (line : Line) : String :=
  if colors then line.entry.level.color ++ line.text clock ++ resetColors else line.text clock

end Line

end RegisterMachine.Log
