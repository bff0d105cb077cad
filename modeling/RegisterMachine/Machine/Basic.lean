import RegisterMachine.Console
import RegisterMachine.Log.Line
import RegisterMachine.Machine.Config
import RegisterMachine.Machine.Effect
import RegisterMachine.Program

/-!
# The machine

A machine runs a program: it fetches the instruction that the program counter
points at, moves the counter past it, and executes it, which may move the
counter again. It halts when the counter points at no instruction. A fault stops
it too, with the counter just past the instruction at fault.

A run has no bound of its own. `run` is therefore given a number of steps to
take at most, and a machine that has not come to an end within them can be run
further.
-/

namespace RegisterMachine

/-- A machine in the middle of a run. -/
structure Machine where
  registers : RegisterFile
  /-- The labels as branches see them, which their owner may change between steps. -/
  labels : LabelTable
  instructions : Array Instruction
  /-- The index of the next instruction. -/
  pc : Nat := 0
  console : Console := {}
  /-- Whether every instruction is logged before it is executed. -/
  trace : Bool := false
  log : Array Log.Entry := #[]
  deriving DecidableEq, Repr, Inhabited

/-- What became of a step, or of a run. -/
inductive Outcome
  /-- An instruction was executed. -/
  | continued
  /-- There was no instruction to execute. -/
  | halted
  /-- The instruction met a fault. -/
  | failed (error : Error)
  deriving DecidableEq, Repr, Inhabited

/-- Why a machine was not built. -/
inductive BuildFault
  /-- The configuration was refused, for a cause that the one who asked for the machine is told. -/
  | refused (error : Error)
  /-- There cannot be so many registers. Nobody is told: whatever asked for the machine breaks off
  then and there. -/
  | overflow
  deriving DecidableEq, Repr, Inhabited

namespace Machine

/-- A machine at the start of a program, with its registers at zero. -/
def new (config : Config) (program : Program) (console : Console) : Except BuildFault Machine :=
  match config.validate, RegisterFile.new? config.registers with
  | .error error, _ => .error (.refused error)
  | .ok (), none => .error .overflow
  | .ok (), some registers =>
    .ok {
      registers
      labels := program.labels
      instructions := program.instructions
      console
      trace := config.trace }

/-- Whether the program counter points at no instruction. -/
def halted (machine : Machine) : Bool :=
  machine.instructions.size ≤ machine.pc

/-- Zero in all registers, and the program from its start. -/
def reset (machine : Machine) : Machine :=
  { machine with registers := machine.registers.clear, pc := 0 }

/-- Carries out an effect. -/
def apply (machine : Machine) : Effect → Machine
  | .store register value =>
    { machine with registers := machine.registers.write register value }
  | .print value => { machine with console := machine.console.addValue value }
  | .report error => { machine with console := machine.console.addFault error }
  | .jump index => { machine with pc := index }
  | .pass => machine

/-- Executes an instruction, wherever it comes from. A fault leaves the machine as it is. -/
def execute (machine : Machine) (instruction : Instruction) : Machine × Option Error :=
  match instruction.operation.effect machine.registers machine.labels with
  | .ok effect => (machine.apply effect, none)
  | .error error => (machine, some error)

/-- Logs the instruction that is about to be executed, if such things are to be logged. -/
def note (machine : Machine) (instruction : Instruction) : Machine :=
  if machine.trace then
    { machine with
      log := machine.log.push { level := .info, message := instruction.listing machine.pc } }
  else machine

/-- Executes the next instruction, if there is one. -/
def step (machine : Machine) : Machine × Outcome :=
  match machine.instructions[machine.pc]? with
  | none => (machine, .halted)
  | some instruction =>
    let noted := machine.note instruction
    match { noted with pc := noted.pc + 1 }.execute instruction with
    | (after, none) => (after, .continued)
    | (after, some error) => (after, .failed error)

/-- Takes steps until the machine ends or has taken as many as allowed, and counts the
instructions executed on top of those before. The outcome is `continued` when the steps ran out. -/
def runFrom (executed : Nat) : Nat → Machine → Machine × Nat × Outcome
  | 0, machine => (machine, executed, .continued)
  | steps + 1, machine =>
    match machine.step with
    | (after, .continued) => runFrom (executed + 1) steps after
    | (after, outcome) => (after, executed, outcome)

/-- Runs for at most the given number of steps. The answer has the machine, the number of
instructions executed, and how the run ended. -/
def run (steps : Nat) (machine : Machine) : Machine × Nat × Outcome :=
  runFrom 0 steps machine

/-- All that there is to see of a machine: registers, labels, counter and program. -/
def display (machine : Machine) : String :=
  machine.registers.display ++ "\n" ++ "labels: " ++ machine.labels.display ++ "\n"
    ++ "pc: " ++ Numeral.ofNat machine.pc ++ "\n" ++ listing machine.instructions

/-- Executing leaves the program and the label table alone, and says so in one place. -/
theorem apply_frame (machine : Machine) (effect : Effect) :
    (machine.apply effect).labels = machine.labels
      ∧ (machine.apply effect).instructions = machine.instructions
      ∧ (machine.apply effect).registers.size = machine.registers.size := by
  cases effect <;> simp [apply]

theorem execute_of_ok {machine : Machine} {instruction : Instruction} {effect : Effect}
    (h : instruction.operation.effect machine.registers machine.labels = .ok effect) :
    machine.execute instruction = (machine.apply effect, none) := by
  rw [execute, h]

theorem execute_of_error {machine : Machine} {instruction : Instruction} {error : Error}
    (h : instruction.operation.effect machine.registers machine.labels = .error error) :
    machine.execute instruction = (machine, some error) := by
  rw [execute, h]

/-- A run that used up its steps goes on as if it had been allowed more from the start. -/
theorem runFrom_add (executed steps more : Nat) (machine : Machine) :
    runFrom executed (steps + more) machine
      = match runFrom executed steps machine with
        | (after, count, .continued) => runFrom count more after
        | ended => ended := by
  induction steps generalizing executed machine with
  | zero => rw [Nat.zero_add, runFrom]
  | succ steps ih =>
      rw [Nat.succ_add, runFrom, runFrom]
      cases hstep : machine.step with
      | mk after outcome =>
          cases outcome with
          | continued => exact ih (executed + 1) after
          | halted => rfl
          | failed error => rfl

/-- A machine whose counter is outside the program stays as it is. -/
theorem step_of_halted {machine : Machine} (h : machine.instructions.size ≤ machine.pc) :
    machine.step = (machine, .halted) := by
  rw [step, Array.getElem?_eq_none h]

end Machine

end RegisterMachine
