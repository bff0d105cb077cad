import RegisterMachine.Proofs.Changes
import RegisterMachine.Proofs.Lockstep

/-!
# A machine does not see what it writes

Nothing that a machine does depends on its console, on its log, or on whether it
logs at all. So a change of these may be made before a run or after it, with the
same end. `Transparent` says what such a change has to leave alone, and that it
may be made before or after fetching an instruction and carrying out an effect;
by `Transparent.step` and `Transparent.runFrom` it may then be made before or
after any number of steps. There are two such changes: to log nothing, and to
write other things first.
-/

namespace RegisterMachine

namespace Machine

/-- A change that steps neither see nor undo. -/
structure Transparent (change : Machine → Machine) : Prop where
  instructions : ∀ machine, (change machine).instructions = machine.instructions
  labels : ∀ machine, (change machine).labels = machine.labels
  registers : ∀ machine, (change machine).registers = machine.registers
  pc : ∀ machine, (change machine).pc = machine.pc
  fetched : ∀ machine instruction,
    (change machine).fetched instruction = change (machine.fetched instruction)
  apply : ∀ machine effect, (change machine).apply effect = change (machine.apply effect)

variable {change : Machine → Machine}

theorem Transparent.commutes (h : Transparent change) (machine : Machine) :
    Commutes change id id machine where
  pc := h.pc machine
  instructions := by rw [h.instructions, Array.map_id]
  fetched := h.fetched machine
  effect instruction _ := by rw [h.registers, h.labels, mapError_id, id]
  apply instruction effect _ _ := h.apply (machine.fetched instruction) effect

theorem Transparent.step (h : Transparent change) (machine : Machine) :
    (change machine).step = (change machine.step.1, machine.step.2) := by
  rw [(h.commutes machine).step, Outcome.map_id]

theorem Transparent.stepped (h : Transparent change) (machine : Machine) (count : Nat) :
    (change machine).stepped count = change (machine.stepped count) :=
  stepped_of_commutes fun k _ => h.commutes (machine.stepped k)

theorem Transparent.lockstep (h : Transparent change) :
    Stepper.Lockstep Machine.step Machine.step fun machine changed => changed = change machine := by
  rintro machine changed rfl
  rw [h.step]
  exact ⟨rfl, rfl⟩

theorem Transparent.runFrom (h : Transparent change) (executed steps : Nat) (machine : Machine) :
    Machine.runFrom executed steps (change machine)
      = (change (Machine.runFrom executed steps machine).1,
          (Machine.runFrom executed steps machine).2) := by
  obtain ⟨hend, hafter⟩ := h.lockstep.runFrom steps executed machine _ rfl
  rw [runFrom_eq, runFrom_eq]
  exact Prod.ext hafter hend.symm

/-! ## Logging nothing -/

/-- The machine that has logged nothing and never will. -/
def silent (machine : Machine) : Machine :=
  { machine with trace := false, log := #[] }

theorem transparent_silent : Transparent silent where
  instructions _ := rfl
  labels _ := rfl
  registers _ := rfl
  pc _ := rfl
  fetched machine instruction := by
    obtain ⟨log, h⟩ := machine.fetched_eq instruction
    rw [h]
    rfl
  apply machine effect := by cases effect <;> rfl

/-- Machines that differ in their logging alone run to the same end. -/
theorem run_of_silent_eq {machine other : Machine} (h : machine.silent = other.silent)
    (steps : Nat) :
    (machine.run steps).1.silent = (other.run steps).1.silent
      ∧ (machine.run steps).2 = (other.run steps).2 := by
  have hmachine := transparent_silent.runFrom 0 steps machine
  rw [h, transparent_silent.runFrom] at hmachine
  obtain ⟨hafter, hend⟩ := Prod.ext_iff.1 hmachine
  exact ⟨hafter.symm, hend.symm⟩

/-- The same step by step. -/
theorem stepped_of_silent_eq {machine other : Machine} (h : machine.silent = other.silent)
    (count : Nat) :
    (machine.stepped count).silent = (other.stepped count).silent
      ∧ (machine.stepped count).step.2 = (other.stepped count).step.2 := by
  have hsilent : (machine.stepped count).silent = (other.stepped count).silent := by
    rw [← transparent_silent.stepped, ← transparent_silent.stepped, h]
  have hstep := transparent_silent.step (machine.stepped count)
  rw [hsilent, transparent_silent.step] at hstep
  exact ⟨hsilent, (Prod.ext_iff.1 hstep).2.symm⟩

/-- New machines with the same number of registers differ in their logging alone. -/
theorem silent_eq_of_new {config configOther : Config} {program : Program} {console : Console}
    {machine other : Machine} (hnew : Machine.new config program console = .ok machine)
    (hnewOther : Machine.new configOther program console = .ok other)
    (hregisters : config.registers = configOther.registers) :
    machine.silent = other.silent := by
  obtain ⟨-, rfl⟩ := eq_initial_of_new hnew
  obtain ⟨-, rfl⟩ := eq_initial_of_new hnewOther
  rw [initial, initial, hregisters]
  rfl

/-! ## Writing other things first -/

/-- The machine that has printed and logged other things before its own. -/
def preceded (console : Console) (log : Array Log.Entry) (machine : Machine) : Machine :=
  { machine with
    console := ⟨console.lines ++ machine.console.lines⟩
    log := log ++ machine.log }

theorem transparent_preceded (console : Console) (log : Array Log.Entry) :
    Transparent (preceded console log) where
  instructions _ := rfl
  labels _ := rfl
  registers _ := rfl
  pc _ := rfl
  fetched machine instruction := by
    rw [fetched, fetched, note, note]
    cases htrace : machine.trace with
    | true => simp [preceded, htrace]
    | false => simp [preceded, htrace]
  apply machine effect := by
    cases effect with
    | print value => simp [preceded, apply, Console.addValue, Console.addLine]
    | report error => simp [preceded, apply, Console.addFault, Console.addLine]
    | store register value => rfl
    | jump index => rfl
    | pass => rfl

end Machine

end RegisterMachine
