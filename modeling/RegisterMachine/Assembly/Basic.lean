import RegisterMachine.Assembly.Workspace
import RegisterMachine.Source

/-!
# Assembling a source

The program that a workspace held before is given up at the start, and lines are
taken in until there are no more. Only the source itself can end that early, and
then everything up to there stays. A file that cannot be opened is found out
before anything is given up.
-/

namespace RegisterMachine

namespace Vocabulary

/-- Assembles lines, the first of which has the given number. -/
def assembleLines (vocabulary : Vocabulary) :
    Nat → List String → Workspace → Tally → Workspace × Tally
  | _, [], workspace, tally => (workspace, tally)
  | number, line :: lines, workspace, tally =>
    let (workspace, tally) := workspace.accept tally number (vocabulary.readLine number line)
    vocabulary.assembleLines (number + 1) lines workspace tally

/-- Assembles a source into a new program. -/
def assemble (vocabulary : Vocabulary) (source : Source) (workspace : Workspace) :
    Workspace × Except Error Tally :=
  let (workspace, tally) :=
    vocabulary.assembleLines 1 source.lines { workspace with program := .empty } {}
  match source.fault? with
  | some error => (workspace, .error error)
  | none => (workspace, .ok tally)

/-- The notice of a finished assembly. -/
def assembled (path : String) (tally : Tally) : String :=
  "Translated " ++ path ++ ": " ++ Numeral.ofNat tally.instructions ++ " instructions, "
    ++ Numeral.ofNat tally.rejected ++ " parse errors"

/-- Assembles the file that a path leads to. -/
def assembleFile (vocabulary : Vocabulary) (path : String) (file : InputFile)
    (workspace : Workspace) : Workspace × Except Error Tally :=
  match file.open? with
  | .error reason => (workspace, .error (.io (path ++ ": " ++ reason)))
  | .ok source =>
    match vocabulary.assemble source workspace with
    | (workspace, .ok tally) => (workspace.note .info (assembled path tally), .ok tally)
    | (workspace, .error error) => (workspace, .error error)

end Vocabulary

end RegisterMachine
