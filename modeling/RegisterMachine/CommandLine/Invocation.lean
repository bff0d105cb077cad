import RegisterMachine.Assembly.Basic
import RegisterMachine.CommandLine.Options
import RegisterMachine.CommandLine.Usage
import RegisterMachine.Machine.Basic

/-!
# One invocation of the program

An invocation assembles the file that its first word names and runs the result.
It has three parts. `prepare` does all that comes before the first instruction,
and may find that there is nothing to run. Then the machine runs, for as long as
it takes. `conclude` says how it went.

The standard output belongs to the program that is run: the lines rejected in
its source, its listing if one was asked for, and what it prints. Everything
else is logged.
-/

namespace RegisterMachine.CommandLine

/-- What an invocation finds in its surroundings. -/
structure Environment where
  /-- The name that the program was called by. -/
  program : String
  /-- The variable that sets the number of registers, unless it is unset or not text. -/
  registers : Option String
  /-- What a path leads to. -/
  file : String → InputFile

/-- What an invocation has written so far. -/
structure Transcript where
  stdout : String := ""
  log : Array Log.Line := #[]
  deriving DecidableEq, Repr, Inhabited

namespace Transcript

/-- Adds entries to the log, with the time or without. -/
def note (transcript : Transcript) (stamped : Bool) (entries : Array Log.Entry) : Transcript :=
  { transcript with log := transcript.log ++ entries.map fun entry => { entry, stamped } }

/-- Adds a single entry to the log. -/
def say (transcript : Transcript) (stamped : Bool) (level : Log.Level) (message : String) :
    Transcript :=
  transcript.note stamped #[{ level, message }]

/-- Adds text to the standard output. -/
def print (transcript : Transcript) (text : String) : Transcript :=
  { transcript with stdout := transcript.stdout ++ text }

/-- Adds the lines of a console to the standard output. -/
def printLines (transcript : Transcript) (console : Console) : Transcript :=
  transcript.print (String.join (console.lines.toList.map (· ++ "\n")))

end Transcript

/-- What the assembly of a source has written. -/
def Transcript.ofWorkspace (stamped : Bool) (workspace : Workspace) : Transcript :=
  (({} : Transcript).printLines workspace.console).note stamped workspace.log

/-- How an invocation ended: its exit code, and what it wrote. -/
structure Result where
  code : Nat
  transcript : Transcript
  deriving DecidableEq, Repr, Inhabited

/-- What there is to run, and what was written before. -/
structure Launch where
  machine : Machine
  /-- Whether log lines show the time from here on. -/
  timestamps : Bool
  transcript : Transcript
  deriving DecidableEq, Repr, Inhabited

/-- Where an invocation stands when all is prepared. -/
inductive Start
  /-- There is nothing to run. -/
  | ended (result : Result)
  /-- The machine is ready. -/
  | ready (launch : Launch)
  deriving DecidableEq, Repr, Inhabited

/-- Ends an invocation with a complaint. -/
def refuse (transcript : Transcript) (stamped : Bool) (message : String) : Start :=
  .ended { code := 1, transcript := transcript.say stamped .error message }

/-- The exit code of a process that broke off. -/
def brokenOff : Nat :=
  101

/-- Breaks an invocation off. What it has written stays written; the last words of a process that
breaks off are not its own, and are left out here. -/
def breakOff (transcript : Transcript) : Start :=
  .ended { code := brokenOff, transcript }

/-- Ends an invocation with the help text. -/
def explain (environment : Environment) (code : Nat) : Start :=
  .ended { code, transcript := ({} : Transcript).say true .info (usage environment.program) }

/-- Ends an invocation with a complaint about its options. A word that is no option at all calls
for the help text as well. -/
def refuseOptions (environment : Environment) (stamped : Bool) (fault : UsageFault) : Start :=
  let complained := ({} : Transcript).say stamped .error fault.message
  match fault with
  | .unexpected _ =>
    .ended
      { code := 1, transcript := complained.say stamped .info (usage environment.program) }
  | _ => .ended { code := 1, transcript := complained }

/-- The warning about lines that were left out of the program. -/
def rejectedLines (tally : Tally) : String :=
  Numeral.ofNat tally.rejected ++ " line(s) rejected, running the remaining "
    ++ Numeral.ofNat tally.instructions ++ " instruction(s)"

/-- What is written by the time that the machine is to be built. -/
def announce (options : Options) (tally : Tally) (workspace : Workspace) : Transcript :=
  let stamped := options.timestamps
  let assembled := Transcript.ofWorkspace stamped workspace
  let warned :=
    if tally.rejected = 0 then assembled
    else assembled.say stamped .warn (rejectedLines tally)
  if options.dump then warned.print workspace.program.display else warned

/-- Builds the machine for an assembled program. -/
def launch (options : Options) (tally : Tally) (workspace : Workspace) : Start :=
  let stamped := options.timestamps
  let transcript := announce options tally workspace
  match Machine.new options.config workspace.program {} with
  | .error (.refused error) => refuse transcript stamped error.message
  | .error .overflow => breakOff transcript
  | .ok machine => .ready { machine, timestamps := stamped, transcript }

/-- Assembles the file that a path leads to and builds the machine for it. -/
def load (environment : Environment) (path : String) (options : Options) : Start :=
  let stamped := options.timestamps
  let file := environment.file path
  if file.found then
    match Vocabulary.standard.assembleFile path file {} with
    | (workspace, .error error) =>
      refuse (.ofWorkspace stamped workspace) stamped ("Translation failed: " ++ error.message)
    | (workspace, .ok tally) => launch options tally workspace
  else refuse {} stamped ("Input file does not exist: " ++ path)

/-- Does all that comes before the first instruction. The words are those after the program's own
name. The environment is looked at before the options, so that a register count in it has to be
good even when an option overrides it. -/
def prepare (environment : Environment) : List String → Start
  | [] => explain environment 1
  | path :: words =>
    if path = "-h" ∨ path = "--help" then explain environment 0
    else
      match Config.ofEnvironment environment.registers with
      | .error error => refuse {} true error.message
      | .ok config =>
        match ({ config } : Options).parse words with
        | (options, none) => load environment path options
        | (options, some fault) => refuseOptions environment options.timestamps fault

/-- The last log entry of an invocation whose machine came to its end. -/
def haltedEntry (executed : Nat) : Log.Entry where
  level := .info
  message := "Halted after " ++ Numeral.ofNat executed ++ " instruction(s)"

/-- The last log entry of an invocation whose machine met a fault. The instruction at fault is the
one just before the program counter. -/
def stoppedEntry (machine : Machine) (error : Error) : Log.Entry where
  level := .error
  message :=
    "Execution stopped at instruction " ++ Numeral.ofNat (machine.pc - 1) ++ ": " ++ error.message

/-- Adds what a machine has printed and logged to what was written before it ran. -/
def Launch.written (launch : Launch) (machine : Machine) : Transcript :=
  (launch.transcript.printLines machine.console).note launch.timestamps machine.log

/-- Ends an invocation whose machine has ended, with the fault that it met, if it met one. -/
def conclude (launch : Launch) (machine : Machine) (executed : Nat) (fault : Option Error) :
    Result :=
  let written := launch.written machine
  match fault with
  | none =>
    { code := 0, transcript := written.note launch.timestamps #[haltedEntry executed] }
  | some error =>
    { code := 1, transcript := written.note launch.timestamps #[stoppedEntry machine error] }

/-- Where an invocation stands after one more step of its machine. -/
inductive Progress
  /-- The machine goes on, and this is there to be written by now. -/
  | running (written : Transcript) (launch : Launch)
  /-- The machine has ended. -/
  | ended (result : Result)
  deriving DecidableEq, Repr, Inhabited

/-- What is left to run when all that there was to write has been written. -/
def Launch.flushed (launch : Launch) (machine : Machine) : Launch :=
  { launch with
    machine := { machine with console := {}, log := #[] }
    transcript := {} }

/-- Takes one step. -/
def Launch.advance (launch : Launch) (executed : Nat) : Progress :=
  match launch.machine.step with
  | (machine, .continued) => .running (launch.written machine) (launch.flushed machine)
  | (machine, .halted) => .ended (conclude launch machine executed none)
  | (machine, .failed error) => .ended (conclude launch machine executed (some error))

/-- The whole of an invocation, if its machine ends within the given number of steps. -/
def invoke (environment : Environment) (steps : Nat) (words : List String) : Option Result :=
  match prepare environment words with
  | .ended result => some result
  | .ready launch =>
    match launch.machine.run steps with
    | (_, _, .continued) => none
    | (machine, executed, .halted) => some (conclude launch machine executed none)
    | (machine, executed, .failed error) => some (conclude launch machine executed (some error))

end RegisterMachine.CommandLine
