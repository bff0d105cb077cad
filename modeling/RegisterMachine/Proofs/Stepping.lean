import RegisterMachine.Machine.Basic
import Mathlib.Logic.Function.Iterate

/-!
# What a step can do, and what a run is made of

A step either finds no instruction, or fetches one and carries out its effect,
or fetches one and stops at its fault. `step_cases` says so once, with all that
holds in each case, and every later fact about steps is read off it: no proof
elsewhere looks into `step`.

Whichever of the three it is, the program, the label table and the number of
registers are what they were. That is why a property of these and of the counter
alone can be carried through a run by looking at the counter.

A run is steps up to the first that does not go on. `runFrom_cases` takes it
apart, so that an invariant of `stepped` is one of `run`.
-/

namespace RegisterMachine

namespace Machine

variable {machine after : Machine} {instruction : Instruction} {effect : Effect} {error : Error}

/-- The machine between fetching an instruction and executing it. -/
def fetched (machine : Machine) (instruction : Instruction) : Machine :=
  { machine.note instruction with pc := (machine.note instruction).pc + 1 }

theorem note_eq (machine : Machine) (instruction : Instruction) :
    ∃ log, machine.note instruction = { machine with log } := by
  rw [note]
  split
  · exact ⟨_, rfl⟩
  · exact ⟨machine.log, rfl⟩

/-- Fetching moves the counter and may be logged; it does nothing else. -/
theorem fetched_eq (machine : Machine) (instruction : Instruction) :
    ∃ log, machine.fetched instruction = { machine with pc := machine.pc + 1, log } := by
  obtain ⟨log, h⟩ := machine.note_eq instruction
  exact ⟨log, by rw [fetched, h]⟩

/-- A machine without its log. -/
def unlogged (machine : Machine) : Machine :=
  { machine with log := #[] }

theorem unlogged_fetched (machine : Machine) (instruction : Instruction) :
    (machine.fetched instruction).unlogged = { machine.unlogged with pc := machine.pc + 1 } := by
  obtain ⟨log, h⟩ := machine.fetched_eq instruction
  rw [h]
  rfl

@[simp] theorem fetched_pc : (machine.fetched instruction).pc = machine.pc + 1 := by
  obtain ⟨log, h⟩ := machine.fetched_eq instruction
  rw [h]

@[simp] theorem fetched_registers :
    (machine.fetched instruction).registers = machine.registers := by
  obtain ⟨log, h⟩ := machine.fetched_eq instruction
  rw [h]

@[simp] theorem fetched_labels : (machine.fetched instruction).labels = machine.labels := by
  obtain ⟨log, h⟩ := machine.fetched_eq instruction
  rw [h]

@[simp] theorem fetched_instructions :
    (machine.fetched instruction).instructions = machine.instructions := by
  obtain ⟨log, h⟩ := machine.fetched_eq instruction
  rw [h]

@[simp] theorem fetched_console : (machine.fetched instruction).console = machine.console := by
  obtain ⟨log, h⟩ := machine.fetched_eq instruction
  rw [h]

@[simp] theorem apply_labels : (machine.apply effect).labels = machine.labels :=
  (apply_frame machine effect).1

@[simp] theorem apply_instructions : (machine.apply effect).instructions = machine.instructions :=
  (apply_frame machine effect).2.1

@[simp] theorem apply_size : (machine.apply effect).registers.size = machine.registers.size :=
  (apply_frame machine effect).2.2

/-! ## A new machine -/

/-- A machine before its first step. -/
def initial (config : Config) (program : Program) (console : Console) : Machine where
  registers := .zeros config.registers
  labels := program.labels
  instructions := program.instructions
  console := console
  trace := config.trace

section

variable {config : Config} {program : Program} {console : Console}

theorem new_eq_ok (hregisters : 0 < config.registers)
    (hlimit : config.registers < RegisterFile.limit) (program : Program) (console : Console) :
    Machine.new config program console = .ok (initial config program console) := by
  rw [Machine.new, Config.validate, if_neg (Nat.ne_of_gt hregisters), RegisterFile.new?,
    if_pos hlimit]
  rfl

theorem new_eq_overflow (hlimit : RegisterFile.limit ≤ config.registers) (program : Program)
    (console : Console) : Machine.new config program console = .error .overflow := by
  have hregisters : 0 < config.registers := Nat.lt_of_lt_of_le (by decide) hlimit
  rw [Machine.new, Config.validate, if_neg (Nat.ne_of_gt hregisters), RegisterFile.new?,
    if_neg (Nat.not_lt.2 hlimit)]

theorem new_eq_refused (hregisters : config.registers = 0) (program : Program)
    (console : Console) : Machine.new config program console = .error (.refused .noRegisters) := by
  rw [Machine.new, Config.validate, if_pos hregisters]

theorem exists_new (hregisters : 0 < config.registers) (program : Program) (console : Console)
    (hlimit : config.registers < RegisterFile.limit) :
    ∃ machine, Machine.new config program console = .ok machine :=
  ⟨_, new_eq_ok hregisters hlimit program console⟩

theorem lt_limit_of_new (h : Machine.new config program console = .ok machine) :
    config.registers < RegisterFile.limit := by
  refine Nat.lt_of_not_le fun hlimit => ?_
  rw [new_eq_overflow hlimit] at h
  cases h

theorem eq_initial_of_new (h : Machine.new config program console = .ok machine) :
    0 < config.registers ∧ machine = initial config program console := by
  rcases Nat.eq_zero_or_pos config.registers with hzero | hpos
  · rw [new_eq_refused hzero] at h
    cases h
  · rw [new_eq_ok hpos (lt_limit_of_new h)] at h
    exact ⟨hpos, (Except.ok.inj h).symm⟩

end

/-! ## One instruction -/

theorem execute_cases (machine : Machine) (instruction : Instruction) :
    (∃ effect, instruction.operation.effect machine.registers machine.labels = .ok effect
        ∧ machine.execute instruction = (machine.apply effect, none))
      ∨ (∃ error, instruction.operation.effect machine.registers machine.labels = .error error
        ∧ machine.execute instruction = (machine, some error)) := by
  cases h : instruction.operation.effect machine.registers machine.labels with
  | ok effect => exact .inl ⟨effect, rfl, execute_of_ok h⟩
  | error error => exact .inr ⟨error, rfl, execute_of_error h⟩

theorem execute_frame (machine : Machine) (instruction : Instruction) :
    (machine.execute instruction).1.labels = machine.labels
      ∧ (machine.execute instruction).1.instructions = machine.instructions
      ∧ (machine.execute instruction).1.registers.size = machine.registers.size := by
  obtain ⟨effect, -, h⟩ | ⟨error, -, h⟩ := machine.execute_cases instruction <;> simp [h]

theorem step_of_fetch (h : machine.instructions[machine.pc]? = some instruction) :
    machine.step
      = (((machine.fetched instruction).execute instruction).1,
          match ((machine.fetched instruction).execute instruction).2 with
          | none => .continued
          | some error => .failed error) := by
  rcases hexecute : (machine.fetched instruction).execute instruction with ⟨after, _ | error⟩ <;>
    rw [fetched] at hexecute <;> simp only [step, h, hexecute]

theorem step_of_effect (hfetch : machine.instructions[machine.pc]? = some instruction)
    (heffect : instruction.operation.effect machine.registers machine.labels = .ok effect) :
    machine.step = ((machine.fetched instruction).apply effect, .continued) := by
  have h : (machine.fetched instruction).execute instruction
      = ((machine.fetched instruction).apply effect, none) := execute_of_ok (by simpa using heffect)
  rw [step_of_fetch hfetch, h]

theorem step_of_fault (hfetch : machine.instructions[machine.pc]? = some instruction)
    (heffect : instruction.operation.effect machine.registers machine.labels = .error error) :
    machine.step = (machine.fetched instruction, .failed error) := by
  have h : (machine.fetched instruction).execute instruction
      = (machine.fetched instruction, some error) := execute_of_error (by simpa using heffect)
  rw [step_of_fetch hfetch, h]

/-- All that a step can be. -/
theorem step_cases (machine : Machine) :
    (machine.instructions.size ≤ machine.pc ∧ machine.step = (machine, .halted))
      ∨ (∃ instruction effect, machine.instructions[machine.pc]? = some instruction
          ∧ instruction.operation.effect machine.registers machine.labels = .ok effect
          ∧ machine.step = ((machine.fetched instruction).apply effect, .continued))
      ∨ (∃ instruction error, machine.instructions[machine.pc]? = some instruction
          ∧ instruction.operation.effect machine.registers machine.labels = .error error
          ∧ machine.step = (machine.fetched instruction, .failed error)) := by
  rcases Nat.lt_or_ge machine.pc machine.instructions.size with hpc | hpc
  · have hfetch := Array.getElem?_eq_getElem hpc
    cases h : machine.instructions[machine.pc].operation.effect machine.registers
      machine.labels with
    | ok effect => exact .inr (.inl ⟨_, effect, hfetch, h, step_of_effect hfetch h⟩)
    | error error => exact .inr (.inr ⟨_, error, hfetch, h, step_of_fault hfetch h⟩)
  · exact .inl ⟨hpc, step_of_halted hpc⟩

theorem size_le_pc_of_halted (h : machine.step.2 = .halted) :
    machine.instructions.size ≤ machine.pc ∧ machine.step.1 = machine := by
  obtain ⟨hpc, hstep⟩ | ⟨instruction, effect, -, -, hstep⟩ | ⟨instruction, other, -, -, hstep⟩ :=
    machine.step_cases
  · rw [hstep]
    exact ⟨hpc, rfl⟩
  · rw [hstep] at h
    cases h
  · rw [hstep] at h
    cases h

theorem step_of_failed (h : machine.step.2 = .failed error) :
    ∃ instruction, machine.instructions[machine.pc]? = some instruction
      ∧ instruction.operation.effect machine.registers machine.labels = .error error
      ∧ machine.step = (machine.fetched instruction, .failed error) := by
  obtain ⟨-, hstep⟩ | ⟨instruction, effect, -, -, hstep⟩ |
    ⟨instruction, other, hfetch, heffect, hstep⟩ := machine.step_cases
  · rw [hstep] at h
    cases h
  · rw [hstep] at h
    cases h
  · rw [hstep] at h
    cases h
    exact ⟨instruction, hfetch, heffect, hstep⟩

theorem step_frame (machine : Machine) :
    machine.step.1.labels = machine.labels
      ∧ machine.step.1.instructions = machine.instructions
      ∧ machine.step.1.registers.size = machine.registers.size := by
  obtain ⟨-, h⟩ | ⟨instruction, effect, -, -, h⟩ | ⟨instruction, error, -, -, h⟩ :=
    machine.step_cases <;> simp [h]

/-! ## Many steps -/

/-- The machine after a number of steps, whatever came of each of them. -/
def stepped (machine : Machine) (count : Nat) : Machine :=
  (fun machine : Machine => machine.step.1)^[count] machine

@[simp] theorem stepped_zero : machine.stepped 0 = machine :=
  rfl

theorem stepped_succ (count : Nat) :
    machine.stepped (count + 1) = machine.step.1.stepped count :=
  rfl

theorem stepped_succ_eq_step (count : Nat) :
    machine.stepped (count + 1) = (machine.stepped count).step.1 :=
  Function.iterate_succ_apply' _ count machine

theorem stepped_add (first count : Nat) :
    machine.stepped (first + count) = (machine.stepped first).stepped count := by
  rw [Nat.add_comm]
  exact Function.iterate_add_apply _ count first machine

theorem stepped_induction {P : Machine → Prop} (hstep : ∀ machine, P machine → P machine.step.1)
    (h : P machine) (count : Nat) : P (machine.stepped count) := by
  induction count with
  | zero => exact h
  | succ count ih =>
      rw [stepped_succ_eq_step]
      exact hstep _ ih

/-- The same with the number of steps, where each of them has to go on. -/
theorem goes_induction {P : Nat → Machine → Prop} {count : Nat}
    (hstep : ∀ k machine, P k machine → machine.step.2 = .continued → P (k + 1) machine.step.1)
    (h : P 0 machine) (hgoes : ∀ k < count, (machine.stepped k).step.2 = .continued) :
    P count (machine.stepped count) := by
  induction count with
  | zero => exact h
  | succ count ih =>
      rw [stepped_succ_eq_step]
      exact hstep count _ (ih fun k hk => hgoes k (by omega)) (hgoes count (by omega))

theorem stepped_frame (machine : Machine) (count : Nat) :
    (machine.stepped count).labels = machine.labels
      ∧ (machine.stepped count).instructions = machine.instructions
      ∧ (machine.stepped count).registers.size = machine.registers.size := by
  induction count with
  | zero => exact ⟨rfl, rfl, rfl⟩
  | succ count ih =>
      obtain ⟨hlabels, hinstructions, hsize⟩ := (machine.stepped count).step_frame
      rw [stepped_succ_eq_step, hlabels, hinstructions, hsize]
      exact ih

/-! ## A run -/

/-- A run takes all the steps that it may, or ends with the first that does not go on. -/
theorem runFrom_cases (steps : Nat) :
    ∀ (executed : Nat) (machine : Machine),
      (runFrom executed steps machine = (machine.stepped steps, executed + steps, .continued)
          ∧ ∀ k < steps, (machine.stepped k).step.2 = .continued)
        ∨ ∃ count after outcome, count < steps ∧ outcome ≠ .continued
            ∧ (machine.stepped count).step = (after, outcome)
            ∧ (∀ k < count, (machine.stepped k).step.2 = .continued)
            ∧ runFrom executed steps machine = (after, executed + count, outcome) := by
  induction steps with
  | zero =>
      intro executed machine
      refine .inl ⟨rfl, fun k hk => ?_⟩
      omega
  | succ steps ih =>
      intro executed machine
      rw [runFrom]
      cases hstep : machine.step with
      | mk after outcome =>
          cases outcome with
          | continued =>
              -- The steps of the rest are those after the first.
              have hshift : ∀ count, (∀ k < count, (after.stepped k).step.2 = .continued) →
                  ∀ k < count + 1, (machine.stepped k).step.2 = .continued := by
                intro count h k hk
                cases k with
                | zero => rw [stepped_zero, hstep]
                | succ k =>
                    rw [stepped_succ, hstep]
                    exact h k (by omega)
              simp only []
              obtain ⟨hrun, hgoes⟩ | ⟨count, last, outcome, hless, hended, hlast, hgoes, hrun⟩ :=
                ih (executed + 1) after
              · refine .inl ⟨?_, hshift steps hgoes⟩
                rw [hrun, stepped_succ, hstep, Nat.add_right_comm, Nat.add_assoc]
              · refine .inr ⟨count + 1, last, outcome, Nat.succ_lt_succ hless, hended, ?_,
                  hshift count hgoes, ?_⟩
                · rw [stepped_succ, hstep]
                  exact hlast
                · rw [hrun, Nat.add_right_comm, Nat.add_assoc]
          | halted =>
              refine .inr ⟨0, after, .halted, Nat.zero_lt_succ steps, by simp, hstep,
                fun k hk => ?_, rfl⟩
              omega
          | failed error =>
              refine .inr ⟨0, after, .failed error, Nat.zero_lt_succ steps, by simp, hstep,
                fun k hk => ?_, rfl⟩
              omega

/-- A run that ended did so at the step after those that it counts. -/
theorem step_of_run {steps count : Nat} {outcome : Outcome}
    (h : machine.run steps = (after, count, outcome)) (hended : outcome ≠ .continued) :
    (machine.stepped count).step = (after, outcome)
      ∧ ∀ k < count, (machine.stepped k).step.2 = .continued := by
  rw [run] at h
  obtain ⟨hrun, -⟩ | ⟨count, last, outcome, -, -, hlast, hgoes, hrun⟩ :=
    runFrom_cases steps 0 machine
  · rw [hrun] at h
    cases h
    exact absurd rfl hended
  · rw [hrun, Nat.zero_add] at h
    cases h
    exact ⟨hlast, hgoes⟩

/-- The first step that does not go on is where a run with enough steps ends. -/
theorem run_of_ended {steps count : Nat} {outcome : Outcome}
    (hlast : (machine.stepped count).step = (after, outcome)) (hended : outcome ≠ .continued)
    (hgoes : ∀ k < count, (machine.stepped k).step.2 = .continued) (hsteps : count < steps) :
    machine.run steps = (after, count, outcome) := by
  have hstop : (machine.stepped count).step.2 ≠ .continued := by rwa [hlast]
  rw [run]
  obtain ⟨-, hall⟩ | ⟨other, last, ending, -, hstopped, hother, hbefore, hrun⟩ :=
    runFrom_cases steps 0 machine
  · exact absurd (hall count hsteps) hstop
  · have hstopOther : (machine.stepped other).step.2 ≠ .continued := by rwa [hother]
    obtain rfl : count = other := by
      rcases Nat.lt_trichotomy count other with hlt | heq | hgt
      · exact absurd (hbefore count hlt) hstop
      · exact heq
      · exact absurd (hgoes other hgt) hstopOther
    rw [hlast] at hother
    cases hother
    rw [hrun, Nat.zero_add]

/-- As long as the machine goes on, a run takes all the steps that it may. -/
theorem run_of_goes {steps : Nat} (hgoes : ∀ k < steps, (machine.stepped k).step.2 = .continued) :
    machine.run steps = (machine.stepped steps, steps, .continued) := by
  rw [run]
  obtain ⟨hrun, -⟩ | ⟨count, last, outcome, hless, hended, hlast, -, -⟩ :=
    runFrom_cases steps 0 machine
  · rw [hrun, Nat.zero_add]
  · have hgoesOn := hgoes count hless
    rw [hlast] at hgoesOn
    exact absurd hgoesOn hended

/-- A machine that goes on for so many steps at most ends a run, and always the same way. -/
theorem exists_end_of_bound {bound : Nat}
    (hbound : ∀ count, (∀ k < count, (machine.stepped k).step.2 = .continued) → count ≤ bound) :
    ∃ after count outcome, outcome ≠ .continued ∧ (machine.stepped count).step = (after, outcome)
      ∧ (∀ k < count, (machine.stepped k).step.2 = .continued)
      ∧ ∀ steps, bound < steps → machine.run steps = (after, count, outcome) := by
  obtain ⟨-, hall⟩ | ⟨count, after, outcome, -, hended, hlast, hgoes, -⟩ :=
    runFrom_cases (bound + 1) 0 machine
  · exact absurd (hbound _ hall) (Nat.not_succ_le_self bound)
  · exact ⟨after, count, outcome, hended, hlast, hgoes, fun steps hsteps =>
      run_of_ended hlast hended hgoes (Nat.lt_of_le_of_lt (hbound count hgoes) hsteps)⟩

theorem size_le_pc_of_run {steps count : Nat} (h : machine.run steps = (after, count, .halted)) :
    after.instructions.size ≤ after.pc := by
  obtain ⟨hlast, -⟩ := step_of_run h (by simp)
  obtain ⟨hpc, hafter⟩ := size_le_pc_of_halted (congrArg Prod.snd hlast)
  obtain rfl : after = machine.stepped count := by rw [← hafter, hlast]
  exact hpc

theorem exists_stepped_of_run (machine : Machine) (steps : Nat) :
    ∃ count, (machine.run steps).1 = machine.stepped count := by
  rw [run]
  obtain ⟨hrun, -⟩ | ⟨count, last, outcome, -, -, hlast, -, hrun⟩ := runFrom_cases steps 0 machine
  · exact ⟨steps, by rw [hrun]⟩
  · exact ⟨count + 1, by rw [hrun, stepped_succ_eq_step, hlast]⟩

end Machine

end RegisterMachine
