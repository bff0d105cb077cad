import RegisterMachine.Proofs.Lockstep

/-!
# Looking labels up ahead of a run

A branch looks its target up at the moment it is taken. When nobody edits the
label table in between, it might as well have been looked up before the run: a
program whose branches carry their destinations, and a machine without a label
table, do the same.

`PrelinkedMachine` is that machine. It has code where the other has
instructions, and a destination is an index, or the label that no index was
found for. That there is none is no fault before the branch is taken, so the
label has to be kept for the report.

Prelinking is a function from machines to prelinked machines, and it commutes
with a step (`step_prelink`). This is where the hidden invariant enters: the
code after a step is that of the same table and the same instructions, because
no effect reaches either of them. The rest is lockstep.
-/

namespace RegisterMachine

/-- Where a branch goes. -/
inductive Destination
  | index (index : Nat)
  /-- Nowhere: the label is not bound. -/
  | unbound (label : String)
  deriving DecidableEq, Repr

/-- An operation that needs no label table. -/
inductive PrelinkedOperation
  | load (register : UInt64) (value : Int64)
  | arith (op : Arithmetic) (result op1 op2 : UInt64)
  | print (register : UInt64)
  | branch (register : UInt64) (destination : Destination)
  deriving DecidableEq, Repr

/-- A machine whose labels were looked up before it was started. -/
structure PrelinkedMachine where
  registers : RegisterFile
  code : Array PrelinkedOperation
  pc : Nat
  console : Console
  deriving DecidableEq, Repr

namespace PrelinkedMachine

def execute (machine : PrelinkedMachine) : PrelinkedOperation → Except Error PrelinkedMachine
  | .load register value => do
    let registers ← machine.registers.set register value
    return { machine with registers }
  | .arith op result op1 op2 => do
    let a ← machine.registers.get op1
    let b ← machine.registers.get op2
    match op.eval? a b with
    | none => return { machine with console := machine.console.addFault .divisionByZero }
    | some value =>
      let registers ← machine.registers.set result value
      return { machine with registers }
  | .print register => do
    let value ← machine.registers.get register
    return { machine with console := machine.console.addValue value }
  | .branch register destination => do
    let value ← machine.registers.get register
    if value = 0 then return machine
    match destination with
    | .index index => return { machine with pc := index }
    | .unbound label => .error (.undefinedLabel label)

def step (machine : PrelinkedMachine) : PrelinkedMachine × Outcome :=
  match machine.code[machine.pc]? with
  | none => (machine, .halted)
  | some operation =>
    let advanced := { machine with pc := machine.pc + 1 }
    match advanced.execute operation with
    | .ok after => (after, .continued)
    | .error error => (advanced, .failed error)

variable {machine after : PrelinkedMachine} {operation : PrelinkedOperation} {error : Error}

theorem step_of_none (hfetch : machine.code[machine.pc]? = none) :
    machine.step = (machine, .halted) := by
  rw [step, hfetch]

theorem step_of_ok (hfetch : machine.code[machine.pc]? = some operation)
    (h : { machine with pc := machine.pc + 1 }.execute operation = .ok after) :
    machine.step = (after, .continued) := by
  simp only [step, hfetch, h]

theorem step_of_error (hfetch : machine.code[machine.pc]? = some operation)
    (h : { machine with pc := machine.pc + 1 }.execute operation = .error error) :
    machine.step = ({ machine with pc := machine.pc + 1 }, .failed error) := by
  simp only [step, hfetch, h]

def stepped (machine : PrelinkedMachine) (count : Nat) : PrelinkedMachine :=
  Stepper.stepped step machine count

def run (steps : Nat) (machine : PrelinkedMachine) : PrelinkedMachine × Nat × Outcome :=
  Stepper.runFrom step 0 steps machine

end PrelinkedMachine

/-- Where a branch to a label goes by a label table. -/
def LabelTable.destination (labels : LabelTable) (label : String) : Destination :=
  match labels.find? label with
  | some index => .index index
  | none => .unbound label

def Operation.prelink (labels : LabelTable) : Operation → PrelinkedOperation
  | .load register value => .load register value
  | .arith op result op1 op2 => .arith op result op1 op2
  | .print register => .print register
  | .branch register target => .branch register (labels.destination target)

namespace Machine

variable {machine : Machine}

/-- Looks up every label that a branch names. -/
def prelink (machine : Machine) : PrelinkedMachine where
  registers := machine.registers
  code := machine.instructions.map fun instruction => instruction.operation.prelink machine.labels
  pc := machine.pc
  console := machine.console

/-! ## One step -/

theorem store_prelink (machine : Machine) (register : UInt64) (value : Int64) :
    (machine.registers.set register value >>= fun registers =>
        .ok { machine.prelink with registers })
      = (machine.registers.check register >>= fun _ => .ok (Effect.store register value)).map
          fun effect => (machine.apply effect).prelink := by
  rw [RegisterFile.set]
  cases machine.registers.check register <;> rfl

theorem execute_prelink (machine : Machine) (operation : Operation) :
    machine.prelink.execute (operation.prelink machine.labels)
      = (operation.effect machine.registers machine.labels).map
          fun effect => (machine.apply effect).prelink := by
  cases operation with
  | load register value => exact machine.store_prelink register value
  | arith op result op1 op2 =>
      show machine.registers.get op1 >>= _ = _
      rw [Operation.effect]
      cases machine.registers.get op1 with
      | error error => rfl
      | ok a =>
          show machine.registers.get op2 >>= _ = _
          cases machine.registers.get op2 with
          | error error => rfl
          | ok b =>
              simp only [bind, Except.bind]
              cases op.eval? a b with
              | none => rfl
              | some value => exact machine.store_prelink result value
  | print register =>
      show machine.registers.get register >>= _ = _
      rw [Operation.effect]
      cases machine.registers.get register <;> rfl
  | branch register target =>
      show machine.registers.get register >>= _ = _
      rw [Operation.effect]
      cases machine.registers.get register with
      | error error => rfl
      | ok value =>
          simp only [bind, Except.bind]
          split
          · rfl
          · rw [LabelTable.destination, LabelTable.resolve]
            cases machine.labels.find? target <;> rfl

theorem prelink_fetched (machine : Machine) (instruction : Instruction) :
    (machine.fetched instruction).prelink
      = { machine.prelink with pc := machine.prelink.pc + 1 } := by
  obtain ⟨log, h⟩ := machine.fetched_eq instruction
  rw [h]
  rfl

/-- What fetching and executing an instruction comes to, looked up ahead. -/
theorem execute_prelink_fetched (machine : Machine) (instruction : Instruction) :
    { machine.prelink with pc := machine.prelink.pc + 1 }.execute
        (instruction.operation.prelink machine.labels)
      = (instruction.operation.effect machine.registers machine.labels).map
          fun effect => ((machine.fetched instruction).apply effect).prelink := by
  have h := execute_prelink (machine.fetched instruction) instruction.operation
  rwa [fetched_registers, fetched_labels, prelink_fetched] at h

theorem getElem?_code (machine : Machine) (index : Nat) :
    machine.prelink.code[index]?
      = machine.instructions[index]?.map fun instruction =>
          instruction.operation.prelink machine.labels :=
  Array.getElem?_map

/-- Prelinking commutes with a step. -/
theorem step_prelink (machine : Machine) :
    machine.prelink.step = (machine.step.1.prelink, machine.step.2) := by
  have hcode : machine.prelink.code[machine.prelink.pc]? = _ := machine.getElem?_code machine.pc
  obtain ⟨hpc, hstep⟩ | ⟨instruction, effect, hfetch, heffect, hstep⟩ |
    ⟨instruction, error, hfetch, heffect, hstep⟩ := machine.step_cases
  · rw [Array.getElem?_eq_none hpc] at hcode
    rw [hstep]
    exact PrelinkedMachine.step_of_none hcode
  · have hexecute := machine.execute_prelink_fetched instruction
    rw [heffect] at hexecute
    rw [hfetch] at hcode
    rw [hstep]
    exact PrelinkedMachine.step_of_ok hcode hexecute
  · have hexecute := machine.execute_prelink_fetched instruction
    rw [heffect] at hexecute
    rw [hfetch] at hcode
    rw [hstep, prelink_fetched]
    exact PrelinkedMachine.step_of_error hcode hexecute

/-! ## A run -/

theorem lockstep_prelink :
    Stepper.Lockstep step PrelinkedMachine.step fun machine linked => linked = machine.prelink := by
  rintro machine linked rfl
  rw [step_prelink]
  exact ⟨rfl, rfl⟩

theorem stepped_prelink (machine : Machine) (count : Nat) :
    machine.prelink.stepped count = (machine.stepped count).prelink :=
  lockstep_prelink.stepped count machine machine.prelink rfl

theorem run_prelink (machine : Machine) (steps : Nat) :
    machine.prelink.run steps = ((machine.run steps).1.prelink, (machine.run steps).2) := by
  obtain ⟨houtcome, hafter⟩ := run_of_lockstep lockstep_prelink rfl steps
  exact Prod.ext hafter houtcome.symm

/-- What shows of a machine, and that its prelinked form shows the same. -/
structure LooksLike (machine : Machine) (linked : PrelinkedMachine) : Prop where
  pc : linked.pc = machine.pc
  registers : linked.registers = machine.registers
  console : linked.console = machine.console

theorem looksLike_prelink (machine : Machine) : machine.LooksLike machine.prelink :=
  ⟨rfl, rfl, rfl⟩

/-- A machine whose labels were looked up before it was started, once and for all, does what the
machine does that looks them up as it goes: every step comes to the same, with the same fault if it
fails, and shows the same; and so does every run, or both go on for ever. -/
theorem prelinked_in_lockstep (machine : Machine) :
    (∀ count,
        (machine.prelink.stepped count).step.2 = (machine.stepped count).step.2
          ∧ (machine.stepped count).LooksLike (machine.prelink.stepped count)
          ∧ (machine.prelink.stepped count).code = machine.prelink.code)
      ∧ (∀ steps,
        (machine.prelink.run steps).2 = (machine.run steps).2
          ∧ (machine.run steps).1.LooksLike (machine.prelink.run steps).1)
      ∧ ((∀ steps, (machine.prelink.run steps).2.2 = .continued)
          ↔ ∀ steps, (machine.run steps).2.2 = .continued) := by
  refine ⟨?_, ?_, ?_⟩
  · intro count
    obtain ⟨hlabels, hinstructions, -⟩ := machine.stepped_frame count
    rw [stepped_prelink, step_prelink]
    refine ⟨rfl, looksLike_prelink _, ?_⟩
    rw [prelink, hlabels, hinstructions]
    rfl
  · intro steps
    rw [run_prelink]
    exact ⟨rfl, looksLike_prelink _⟩
  · exact forall_congr' fun steps => by rw [run_prelink]

/-- A branch that leads nowhere does no harm as long as it is not taken. -/
example :
    let machine : Machine :=
      { registers := ⟨#[0]⟩, labels := {}, instructions := #[⟨"", .branch 0 "nowhere"⟩] }
    machine.prelink.code = #[.branch 0 (.unbound "nowhere")]
      ∧ (machine.prelink.run 9).2 = (1, .halted) := by
  decide +kernel

end Machine

end RegisterMachine
