import RegisterMachine.Assembly.Reading
import RegisterMachine.Console
import RegisterMachine.Log.Line
import RegisterMachine.Program

/-!
# The workspace of an assembly

Assembling a source takes it line by line. Each line adds its instruction to the
program, or a complaint to the console, or a notice to the log, or nothing. None
of them stops the work, and a line that is rejected leaves the program as it
was. A tally is kept of the lines that mattered: those that made an instruction
and those that should have.
-/

namespace RegisterMachine

/-- What an assembly works on: the program that it builds, the console that hears of rejected
lines, and the log. -/
structure Workspace where
  program : Program := {}
  console : Console := {}
  log : Array Log.Entry := #[]
  deriving DecidableEq, Repr, Inhabited

/-- How many lines became instructions and how many were rejected. -/
structure Tally where
  instructions : Nat := 0
  rejected : Nat := 0
  deriving DecidableEq, Repr, Inhabited

namespace Tally

/-- One more instruction. -/
def addInstruction (tally : Tally) : Tally :=
  { tally with instructions := tally.instructions + 1 }

/-- One more rejected line. -/
def addRejected (tally : Tally) : Tally :=
  { tally with rejected := tally.rejected + 1 }

end Tally

namespace Workspace

/-- Adds an entry to the log. -/
def note (workspace : Workspace) (level : Log.Level) (message : String) : Workspace :=
  { workspace with log := workspace.log.push { level, message } }

/-- Complains about a line on the console. -/
def complain (workspace : Workspace) (error : Error) (reference : String) : Workspace :=
  { workspace with console := workspace.console.addRejection error.message reference }

/-- Takes in the reading of the line with the given number. An instruction whose label is taken is
rejected like a line that cannot be read. -/
def accept (workspace : Workspace) (tally : Tally) (number : Nat) :
    Reading → Workspace × Tally
  | .blank => (workspace, tally)
  | .labelOnly label =>
    (workspace.note .warn
      ("line " ++ Numeral.ofNat number ++ ": label " ++ label ++ " has no instruction, ignored"),
      tally)
  | .instruction instruction =>
    match workspace.program.push instruction with
    | .ok program => ({ workspace with program }, tally.addInstruction)
    | .error error => (workspace.complain error instruction.label, tally.addRejected)
  | .rejected error reference =>
    (workspace.complain error reference, tally.addRejected)

end Workspace

end RegisterMachine
