import RegisterMachine.Proofs.Stepping

/-!
# Changes that may be made before a step or after it

Two machines are compared most easily when one of them is the other after a
change: its registers extended, its labels renamed, its log cut off. If the
change may be made before a step or after it, with the same end, then it may be
made before or after any number of steps, and the two have been compared.

All that has to be known of a change is about one instruction, the one that the
machine is about to execute. The changed machine fetches a counterpart of it;
the counterpart comes to the same effect by what the changed machine holds, or
to the same fault in another reading; and the change may be made before or after
that effect is carried out. `Commutes` says this of a given machine, and not of
all of them, because some changes do no harm only as long as the instruction
does not come upon what was changed.
-/

namespace RegisterMachine

def Outcome.map (reading : Error → Error) : Outcome → Outcome
  | continued => continued
  | halted => halted
  | failed error => failed (reading error)

@[simp] theorem Outcome.map_id (outcome : Outcome) : outcome.map id = outcome := by
  cases outcome <;> rfl

theorem mapError_id {α : Type} (result : Except Error α) : result.mapError id = result := by
  cases result <;> rfl

namespace Machine

variable {change : Machine → Machine} {counterpart : Instruction → Instruction}
  {reading : Error → Error} {machine : Machine}

/-- The machine may be changed before its next step or after it. -/
structure Commutes (change : Machine → Machine) (counterpart : Instruction → Instruction)
    (reading : Error → Error) (machine : Machine) : Prop where
  pc : (change machine).pc = machine.pc
  instructions : (change machine).instructions = machine.instructions.map counterpart
  fetched : ∀ instruction,
    (change machine).fetched (counterpart instruction) = change (machine.fetched instruction)
  effect : ∀ instruction, machine.instructions[machine.pc]? = some instruction →
    (counterpart instruction).operation.effect (change machine).registers (change machine).labels
      = (instruction.operation.effect machine.registers machine.labels).mapError reading
  apply : ∀ instruction effect, machine.instructions[machine.pc]? = some instruction →
    instruction.operation.effect machine.registers machine.labels = .ok effect →
    (change (machine.fetched instruction)).apply effect
      = change ((machine.fetched instruction).apply effect)

theorem Commutes.step (h : Commutes change counterpart reading machine) :
    (change machine).step = (change machine.step.1, machine.step.2.map reading) := by
  have hfetch : (change machine).instructions[(change machine).pc]?
      = machine.instructions[machine.pc]?.map counterpart := by
    rw [h.pc, h.instructions, Array.getElem?_map]
  obtain ⟨hpc, hstep⟩ | ⟨instruction, effect, hfound, heffect, hstep⟩ |
    ⟨instruction, error, hfound, heffect, hstep⟩ := machine.step_cases
  · rw [hstep]
    exact step_of_halted (by rwa [h.instructions, Array.size_map, h.pc])
  · have hcounterpart := h.effect instruction hfound
    rw [heffect] at hcounterpart
    rw [hfound] at hfetch
    rw [step_of_effect hfetch hcounterpart, hstep, h.fetched,
      h.apply instruction effect hfound heffect]
    rfl
  · have hcounterpart := h.effect instruction hfound
    rw [heffect] at hcounterpart
    rw [hfound] at hfetch
    rw [step_of_fault hfetch hcounterpart, hstep, h.fetched]
    rfl

theorem stepped_of_commutes {count : Nat}
    (h : ∀ k < count, Commutes change counterpart reading (machine.stepped k)) :
    (change machine).stepped count = change (machine.stepped count) := by
  induction count with
  | zero => rfl
  | succ count ih =>
      have hlast := h count (by omega)
      rw [stepped_succ_eq_step, stepped_succ_eq_step, ih fun k hk => h k (by omega), hlast.step]

/-- What comes of a step of the changed machine, after any number of them. -/
theorem outcome_of_commutes {count : Nat}
    (h : ∀ k ≤ count, Commutes change counterpart reading (machine.stepped k)) :
    ((change machine).stepped count).step.2 = (machine.stepped count).step.2.map reading := by
  have hbefore : (change machine).stepped count = change (machine.stepped count) :=
    stepped_of_commutes fun k hk => h k (by omega)
  rw [hbefore, (h count (Nat.le_refl count)).step]

theorem outcome_of_commutes_id {count : Nat}
    (h : ∀ k ≤ count, Commutes change counterpart id (machine.stepped k)) :
    ((change machine).stepped count).step.2 = (machine.stepped count).step.2 := by
  rw [outcome_of_commutes h, Outcome.map_id]

/-! ## Other registers -/

/-- The machine with something done to its registers. -/
def onRegisters (change : RegisterFile → RegisterFile) (machine : Machine) : Machine :=
  { machine with registers := change machine.registers }

theorem fetched_onRegisters {change : RegisterFile → RegisterFile} (instruction : Instruction) :
    (machine.onRegisters change).fetched instruction
      = (machine.fetched instruction).onRegisters change := by
  rw [fetched, fetched, note, note]
  cases htrace : machine.trace <;> simp [onRegisters, htrace]

/-- What is done to the registers must not change what the instruction comes to, nor be in the way
of what it stores. -/
theorem commutes_onRegisters {change : RegisterFile → RegisterFile}
    (heffect : ∀ instruction, machine.instructions[machine.pc]? = some instruction →
      instruction.operation.effect (change machine.registers) machine.labels
        = instruction.operation.effect machine.registers machine.labels)
    (hstore : ∀ instruction register value,
      machine.instructions[machine.pc]? = some instruction →
      instruction.operation.effect machine.registers machine.labels = .ok (.store register value) →
      (change machine.registers).write register value
        = change (machine.registers.write register value)) :
    Commutes (onRegisters change) id id machine where
  pc := rfl
  instructions := by rw [Array.map_id, onRegisters]
  fetched := fetched_onRegisters
  effect instruction hfetch := by
    rw [mapError_id]
    exact heffect instruction hfetch
  apply instruction effect hfetch hyields := by
    cases effect with
    | store register value =>
        have hwritten := hstore instruction register value hfetch hyields
        simp only [onRegisters, apply, fetched_registers, hwritten]
    | print value => rfl
    | report error => rfl
    | jump index => rfl
    | pass => rfl

end Machine

end RegisterMachine
