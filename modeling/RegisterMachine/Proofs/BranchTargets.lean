import RegisterMachine.Proofs.History

/-!
# A branch looks its target up when it is taken

A taken branch goes to the index that its target stands for at that moment.
Where that is does not depend on when the program was assembled or loaded, and
not on how often the branch was taken before: it is the index of the last deed
to bind the target (`Current`), and with none there is no jump. An index may lie
anywhere. Outside the program it halts the machine, and there it stays.
-/

namespace RegisterMachine

namespace Machine

variable {machine : Machine} {label target : String} {register : UInt64} {value : Int64}

theorem execute_branch_iff (label : String) (hvalue : machine.registers.Holds register value)
    (htaken : value ≠ 0) :
    (∀ index, machine.execute ⟨label, .branch register target⟩
          = ({ machine with pc := index }, none)
        ↔ machine.labels.find? target = some index)
      ∧ (machine.execute ⟨label, .branch register target⟩
            = (machine, some (.undefinedLabel target))
          ↔ machine.labels.find? target = none) := by
  cases hfind : machine.labels.find? target with
  | some place =>
      have hexecute : machine.execute ⟨label, .branch register target⟩
          = (machine.apply (.jump place), none) :=
        execute_of_ok (Operation.Yields.jump hvalue htaken hfind).effect_eq
      rw [hexecute]
      refine ⟨fun index => ⟨fun h => ?_, fun h => ?_⟩, by simp⟩
      · exact congrArg some (congrArg Machine.pc (congrArg Prod.fst h))
      · cases h
        rfl
  | none =>
      have hexecute : machine.execute ⟨label, .branch register target⟩
          = (machine, some (.undefinedLabel target)) :=
        execute_of_error (Operation.effect_unbound hvalue htaken hfind)
      rw [hexecute]
      simp

theorem step_branch_iff
    (hfetch : machine.instructions[machine.pc]? = some ⟨label, .branch register target⟩)
    (hvalue : machine.registers.Holds register value) (htaken : value ≠ 0) :
    (∀ index, machine.step.2 = .continued ∧ machine.step.1.pc = index
        ↔ machine.labels.find? target = some index)
      ∧ (machine.step.2 = .failed (.undefinedLabel target) ∧ machine.step.1.pc = machine.pc + 1
          ↔ machine.labels.find? target = none) := by
  cases hfind : machine.labels.find? target with
  | some place =>
      rw [step_of_effect hfetch (Operation.Yields.jump hvalue htaken hfind).effect_eq]
      simp [apply]
  | none =>
      rw [step_of_fault hfetch (Operation.effect_unbound hvalue htaken hfind)]
      simp

/-- An effect leaves the counter where it is, or is that of a branch and takes it to the target. -/
theorem pc_apply_cases {operation : Operation} {effect : Effect}
    (h : operation.Yields machine.registers machine.labels effect) (other : Machine) :
    (other.apply effect).pc = other.pc
      ∨ ∃ register target, operation = .branch register target
        ∧ machine.labels.find? target = some (other.apply effect).pc := by
  cases h with
  | jump hvalue htaken hfind => exact .inr ⟨_, _, rfl, hfind⟩
  | load h => exact .inl rfl
  | arith ha hb hvalue hresult => exact .inl rfl
  | divZero ha hb => exact .inl rfl
  | print h => exact .inl rfl
  | pass h => exact .inl rfl

/-- Whatever was done to a machine, a taken branch goes to the index that the deeds so far have left
its target at, and without one it fails and does not jump. Executing, stepping and starting over
never touch the table; an index may be any at all, and outside the program it halts the machine for
good. -/
theorem branch_follows_history (machine : Machine) (acts : List Act) :
    let reached := machine.performAll acts
    let current := Current machine.labels (machine.history acts)
    (∀ label register value target, reached.registers.Holds register value → value ≠ 0 →
        (∀ index, reached.execute ⟨label, .branch register target⟩
              = ({ reached with pc := index }, none)
            ↔ current target index)
          ∧ (reached.execute ⟨label, .branch register target⟩
                = (reached, some (.undefinedLabel target))
              ↔ ∀ index, ¬ current target index))
      ∧ (∀ label register value target,
          reached.instructions[reached.pc]? = some ⟨label, .branch register target⟩ →
          reached.registers.Holds register value → value ≠ 0 →
          (∀ index, reached.step.2 = .continued ∧ reached.step.1.pc = index
              ↔ current target index)
            ∧ (reached.step.2 = .failed (.undefinedLabel target)
                  ∧ reached.step.1.pc = reached.pc + 1
                ↔ ∀ index, ¬ current target index))
      ∧ (reached.step.1.labels = reached.labels
          ∧ (∀ instruction, (reached.execute instruction).1.labels = reached.labels)
          ∧ reached.reset.labels = reached.labels)
      ∧ (∀ target index,
          Current machine.labels (machine.history (acts ++ [.rebind target index])) target index)
      ∧ (reached.instructions.size ≤ reached.pc → reached.step = (reached, .halted)) := by
  intro reached current
  have hcurrent : ∀ target index, reached.labels.find? target = some index
      ↔ current target index := machine.find?_performAll acts
  have hnone : ∀ target, reached.labels.find? target = none
      ↔ ∀ index, ¬ current target index := by
    intro target
    rw [Option.eq_none_iff_forall_not_mem]
    exact forall_congr' fun index => not_congr (hcurrent target index)
  refine ⟨?_, ?_, ⟨reached.step_frame.1, fun i => (reached.execute_frame i).1, rfl⟩, ?_,
    step_of_halted⟩
  · intro label register value target hvalue htaken
    obtain ⟨hjump, hfault⟩ := execute_branch_iff label hvalue htaken
    exact ⟨fun index => (hjump index).trans (hcurrent target index), hfault.trans (hnone target)⟩
  · intro label register value target hfetch hvalue htaken
    obtain ⟨hjump, hfault⟩ := step_branch_iff hfetch hvalue htaken
    exact ⟨fun index => (hjump index).trans (hcurrent target index), hfault.trans (hnone target)⟩
  · intro target index
    rw [history_append]
    exact .deed rfl (Deed.binding?_rebind target index none) (List.forall_mem_nil _)

def farBranch : Machine where
  registers := ⟨#[1]⟩
  labels := {}
  instructions := #[⟨"", .branch 0 "far"⟩]

/-- The second definition is refused; the index that is bound last is the largest word. -/
theorem branch_follows_history_farBranch :
    let acts := [.define "far" 0, .step, .define "far" 7, .write 0 (-1),
      .rebind "far" 18446744073709551615]
    let reached := farBranch.performAll acts
    reached.registers.Holds 0 (-1)
      ∧ reached.instructions[reached.pc]? = some ⟨"", .branch 0 "far"⟩
      ∧ reached.step.2 = .continued ∧ reached.step.1.pc = 18446744073709551615
      ∧ reached.step.1.step = (reached.step.1, .halted) := by
  intro acts reached
  have hvalue : reached.registers.Holds 0 (-1) := by decide
  have hfetch : reached.instructions[reached.pc]? = some ⟨"", .branch 0 "far"⟩ := by decide
  obtain ⟨-, hstep, -⟩ := branch_follows_history farBranch acts
  obtain ⟨-, -, -, hrebind, -⟩ := branch_follows_history farBranch (acts.take 4)
  obtain ⟨-, -, -, -, hhalted⟩ := branch_follows_history farBranch (acts ++ [.step])
  obtain ⟨hgoes, hpc⟩ := ((hstep _ _ _ _ hfetch hvalue (by decide)).1 18446744073709551615).2
    (hrebind "far" 18446744073709551615)
  exact ⟨hvalue, hfetch, hgoes, hpc, hhalted (by decide)⟩

end Machine

end RegisterMachine
