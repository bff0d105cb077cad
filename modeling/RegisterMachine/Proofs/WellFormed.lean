import RegisterMachine.Proofs.Effects
import RegisterMachine.Proofs.LocalRecovery
import RegisterMachine.Proofs.Stepping

/-!
# Well-formed machines never fail

Whether a machine can ever fail can be read off its program, its label table and
the number of its registers: if every register that an instruction names is
there and every target is bound, to whatever index, then no step fails, wherever
the counter is and whatever the registers hold. A step keeps the machine well
formed because it cannot reach any of the three, and a well-formed machine has
an effect for each of its instructions.

The condition is on all registers that are named and all targets that occur,
also where a division by zero or a branch that is not taken would hide them.
-/

namespace RegisterMachine

namespace Operation

def registers : Operation → List UInt64
  | .load register _ => [register]
  | .arith _ result op1 op2 => [result, op1, op2]
  | .print register => [register]
  | .branch register _ => [register]

/-- The label that an operation may go on at. -/
def target? : Operation → Option String
  | .branch _ target => some target
  | _ => none

/-- All registers that an operation names are below a bound, and its target is bound. -/
def Fits (bound : Nat) (labels : LabelTable) (operation : Operation) : Prop :=
  (∀ register ∈ operation.registers, register.toNat < bound)
    ∧ ∀ target ∈ operation.target?, target ∈ labels.names

instance (bound : Nat) (labels : LabelTable) (operation : Operation) :
    Decidable (operation.Fits bound labels) :=
  decidable_of_iff
    ((operation.registers.all fun register => register.toNat < bound)
      && operation.target?.all fun target => labels.names.contains target)
    (by cases h : operation.target? <;> simp [Fits, h])

theorem mem_registers_of_mem_accesses {file : RegisterFile} {operation : Operation}
    {register : UInt64} (h : register ∈ operation.accesses file) :
    register ∈ operation.registers := by
  cases operation with
  | arith op result op1 op2 =>
      rw [accesses] at h
      split at h <;> grind [registers]
  | load named value => exact h
  | print named => exact h
  | branch named target => exact h

theorem Fits.exists_yields {file : RegisterFile} {labels : LabelTable} {operation : Operation}
    (h : operation.Fits file.size labels) : ∃ effect, operation.Yields file labels effect := by
  obtain hyields | ⟨register, value, target, rfl, -, -, hunbound, -⟩ :=
    yields_of_present labels fun register hmem => h.1 register (mem_registers_of_mem_accesses hmem)
  · exact hyields
  · exact absurd (h.2 target rfl) hunbound

end Operation

namespace Machine

variable {machine : Machine}

/-- Every instruction of the program fits the machine. -/
def WellFormed (machine : Machine) : Prop :=
  ∀ instruction ∈ machine.instructions,
    instruction.operation.Fits machine.registers.size machine.labels

instance (machine : Machine) : Decidable machine.WellFormed :=
  decidable_of_iff
    (machine.instructions.toList.all fun instruction =>
      instruction.operation.Fits machine.registers.size machine.labels)
    (by simp only [WellFormed, List.all_eq_true, Array.mem_toList_iff, decide_eq_true_iff])

theorem WellFormed.step (h : machine.WellFormed) : machine.step.1.WellFormed := by
  obtain ⟨hlabels, hinstructions, hsize⟩ := machine.step_frame
  rw [WellFormed, hlabels, hinstructions, hsize]
  exact h

theorem WellFormed.step_ne_failed (h : machine.WellFormed) (error : Error) :
    machine.step.2 ≠ .failed error := by
  intro hfailed
  obtain ⟨instruction, hfetch, heffect, -⟩ := step_of_failed hfailed
  obtain ⟨effect, hyields⟩ := (h instruction (Array.mem_of_getElem? hfetch)).exists_yields
  rw [hyields.effect_eq] at heffect
  cases heffect

theorem WellFormed.stepped (h : machine.WellFormed) (count : Nat) :
    (machine.stepped count).WellFormed :=
  stepped_induction (fun _ => WellFormed.step) h count

theorem WellFormed.run_ne_failed (h : machine.WellFormed) (steps : Nat) (error : Error) :
    (machine.run steps).2.2 ≠ .failed error := by
  cases hrun : machine.run steps with
  | mk after rest =>
      obtain ⟨count, outcome⟩ := rest
      rintro rfl
      obtain ⟨hlast, -⟩ := step_of_run hrun nofun
      exact (h.stepped count).step_ne_failed error (congrArg Prod.snd hlast)

theorem WellFormed.step_div_zero (h : machine.WellFormed) {label : String}
    {result op1 op2 : UInt64}
    (hfetch : machine.instructions[machine.pc]? = some ⟨label, .arith .div result op1 op2⟩)
    (hzero : machine.registers.Holds op2 0) :
    machine.step
      = ((machine.fetched ⟨label, .arith .div result op1 op2⟩).apply (.report .divisionByZero),
          .continued) := by
  have hnamed := (h _ (Array.mem_of_getElem? hfetch)).1 op1 (by simp [Operation.registers])
  obtain ⟨a, ha⟩ := RegisterFile.exists_holds hnamed
  exact step_of_effect hfetch (Operation.Yields.divZero ha hzero).effect_eq

/-- No step fails, however many were taken before, and a division by zero adds a line to the console
and does nothing else. -/
structure Unfailing (machine : Machine) : Prop where
  step : ∀ count error, (machine.stepped count).step.2 ≠ .failed error
  run : ∀ steps error, (machine.run steps).2.2 ≠ .failed error
  div_zero : ∀ count label result op1 op2,
    let reached := machine.stepped count
    reached.instructions[reached.pc]? = some ⟨label, .arith .div result op1 op2⟩ →
      reached.registers.Holds op2 0 →
      reached.step.2 = .continued
        ∧ reached.step.1.unlogged
          = { reached.unlogged with
              pc := reached.pc + 1
              console := reached.console.addLine "Runtime Error: Division by zero" }

theorem WellFormed.unfailing (h : machine.WellFormed) : machine.Unfailing where
  step count error := (h.stepped count).step_ne_failed error
  run steps error := h.run_ne_failed steps error
  div_zero count label result op1 op2 := by
    intro reached hfetch hzero
    rw [(h.stepped count).step_div_zero hfetch hzero]
    refine ⟨rfl, ?_⟩
    obtain ⟨log, hfetched⟩ := reached.fetched_eq ⟨label, .arith .div result op1 op2⟩
    rw [hfetched]
    rfl

end Machine

namespace Vocabulary

variable {vocabulary : Vocabulary}

theorem ReadsAs.unique {lines : List String} {k : Nat} {made other : Instruction}
    (h : vocabulary.ReadsAs lines k made) (hother : vocabulary.ReadsAs lines k other) :
    made = other := by
  rw [readsAs_iff] at h hother
  rw [h] at hother
  cases hother
  rfl

/-- The label of a line that contributes is bound. -/
theorem mem_names_of_contributes {source : Source} {workspace : Workspace} {k : Nat}
    {made : Instruction} (hcontributes : vocabulary.contributes source.lines k = true)
    (hreads : vocabulary.ReadsAs source.lines k made) (hlabel : made.label ≠ "") :
    made.label ∈ (vocabulary.assemble source workspace).1.program.labels.names := by
  rw [contributes, decide_eq_true_iff, sizeAfter_lt_iff] at hcontributes
  obtain ⟨other, hverdict⟩ := hcontributes
  obtain rfl := hreads.unique (getElem?_verdicts.1 hverdict).1
  have hbound := (indexed_assemble source workspace).find?_iff.2
    ⟨hlabel, made, getElem?_assemble hverdict, rfl⟩
  by_contra hunbound
  rw [LabelTable.find?_eq_none_iff.2 hunbound] at hbound
  cases hbound

end Vocabulary

/-- A machine whose program names only registers that are there and only targets that are bound
never fails. So it is with an assembled program that branches only to labels of lines which
contributed to it. -/
theorem unfailing_of_wellFormed :
    (∀ machine : Machine, machine.WellFormed → machine.Unfailing)
      ∧ ∀ (vocabulary : Vocabulary) (source : Source) (workspace : Workspace) (machine : Machine),
        let program := (vocabulary.assemble source workspace).1.program
        machine.labels = program.labels → machine.instructions = program.instructions →
        (∀ made ∈ program.instructions, ∀ register ∈ made.operation.registers,
          register.toNat < machine.registers.size) →
        (∀ made ∈ program.instructions, ∀ target ∈ made.operation.target?,
          ∃ k accepted, vocabulary.contributes source.lines k = true
            ∧ vocabulary.ReadsAs source.lines k accepted
            ∧ accepted.label = target ∧ target ≠ "") →
        machine.Unfailing := by
  refine ⟨fun machine h => h.unfailing, ?_⟩
  intro vocabulary source workspace machine program hlabels hinstructions hregisters htargets
  refine Machine.WellFormed.unfailing fun made hmade => ?_
  rw [hinstructions] at hmade
  refine ⟨hregisters made hmade, fun target htarget => ?_⟩
  obtain ⟨k, accepted, hcontributes, hreads, rfl, hlabel⟩ := htargets made hmade target htarget
  rw [hlabels]
  exact Vocabulary.mem_names_of_contributes hcontributes hreads hlabel

/-- A division by zero over and over: the result is reported and the branch after it goes back. -/
def endless : Machine where
  registers := ⟨#[0, 5]⟩
  labels := ⟨[("a", 0), ("b", 1)], by decide⟩
  instructions := #[⟨"a", .arith .div 1 1 0⟩, ⟨"b", .branch 1 "a"⟩]

theorem program_endless :
    (Vocabulary.standard.assemble (.ofText "a div 1 1 0\nb bnz 1 a") {}).1.program
      = ⟨endless.labels, endless.instructions⟩ := by
  decide +kernel

/-- As assembled, and with the target moved far outside the program. -/
theorem unfailing_of_wellFormed_endless :
    let source := Source.ofText "a div 1 1 0\nb bnz 1 a"
    let program := (Vocabulary.standard.assemble source {}).1.program
    let moved := { endless with labels := ⟨[("a", 99)], by decide⟩ }
    endless.labels = program.labels ∧ endless.instructions = program.instructions
      ∧ Vocabulary.standard.contributes source.lines 0 = true
      ∧ Vocabulary.standard.ReadsAs source.lines 0 ⟨"a", .arith .div 1 1 0⟩
      ∧ endless.Unfailing
      ∧ moved.WellFormed ∧ moved.Unfailing := by
  intro source program moved
  have hprogram : program = ⟨endless.labels, endless.instructions⟩ := program_endless
  have hcontributes : Vocabulary.standard.contributes source.lines 0 = true := by decide +kernel
  have hreads : Vocabulary.standard.ReadsAs source.lines 0 ⟨"a", .arith .div 1 1 0⟩ :=
    ⟨"a div 1 1 0", by decide +kernel, by decide +kernel⟩
  have hlabels : endless.labels = program.labels := by rw [hprogram]
  have hinstructions : endless.instructions = program.instructions := by rw [hprogram]
  have hfits : endless.WellFormed := by decide
  have hmoved : moved.WellFormed := by decide
  refine ⟨hlabels, hinstructions, hcontributes, hreads, ?_, hmoved,
    unfailing_of_wellFormed.1 moved hmoved⟩
  refine unfailing_of_wellFormed.2 .standard source {} endless hlabels hinstructions ?_ ?_
  · rw [← hinstructions]
    exact fun made hmade => (hfits made hmade).1
  · show ∀ made ∈ program.instructions, _
    rw [← hinstructions]
    intro made hmade target htarget
    simp only [endless, List.mem_toArray, List.mem_cons, List.not_mem_nil, or_false] at hmade
    rcases hmade with rfl | rfl
    · cases htarget
    · cases htarget
      exact ⟨0, _, hcontributes, hreads, rfl, by decide⟩

end RegisterMachine
