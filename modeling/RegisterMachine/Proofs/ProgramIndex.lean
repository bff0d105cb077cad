import RegisterMachine.Program

/-!
# The label table as an index of the program

A program keeps two stores, the instructions and the table of their labels.
`Program.labelIndex` computes from the instructions alone what the table should
hold, and a program is `Indexed` when that is what it does hold. Pushing is the
only way in which assembly changes a program, so everything here is about it:
when a push succeeds and all that it then does (`push_cases`), and that an index
stays one.

An index is as good as one could wish. Its bindings point at the instructions
that bear the labels, and no two instructions bear the same label, because no
label is bound twice.
-/

namespace RegisterMachine

/-- A label that is taken; the empty text is no label and never is. -/
def Taken (names : List String) (label : String) : Prop :=
  label ≠ "" ∧ label ∈ names

instance (names : List String) (label : String) : Decidable (Taken names label) :=
  inferInstanceAs (Decidable (_ ∧ _))

/-- The binding that an instruction has at its index, if it bears a label. -/
def Instruction.binding (instruction : Instruction) (index : Nat) : List (String × Nat) :=
  if instruction.label = "" then [] else [(instruction.label, index)]

namespace Program

/-- The labels of the instructions, each with the index at which it stands. -/
def labelIndex (program : Program) : List (String × Nat) :=
  program.instructions.toList.zipIdx.flatMap fun (instruction, index) => instruction.binding index

/-- The label table binds the labels of the instructions, in their order and to their indices. -/
def Indexed (program : Program) : Prop :=
  program.labels.bindings = program.labelIndex

/-- Pushes instructions one after the other, up to the first that is refused. -/
def pushAll (program : Program) (instructions : List Instruction) : Except Error Program :=
  instructions.foldlM push program

variable {program next : Program} {instruction : Instruction}

theorem push_of_taken (h : Taken program.labels.names instruction.label) :
    program.push instruction = .error (.duplicateLabel instruction.label) := by
  rw [push, if_neg h.1, LabelTable.define, dif_pos h.2]
  rfl

theorem exists_push (h : ¬ Taken program.labels.names instruction.label) :
    ∃ next, program.push instruction = .ok next
      ∧ next.instructions = program.instructions.push instruction
      ∧ next.labels.bindings = program.labels.bindings ++ instruction.binding program.size := by
  by_cases hlabel : instruction.label = ""
  · refine ⟨⟨program.labels, program.instructions.push instruction⟩, ?_, rfl, ?_⟩
    · rw [push, if_pos hlabel]
      rfl
    · rw [Instruction.binding, if_pos hlabel, List.append_nil]
  · have hfresh : instruction.label ∉ program.labels.names := fun hmem => h ⟨hlabel, hmem⟩
    refine ⟨⟨program.labels.append instruction.label program.size hfresh,
      program.instructions.push instruction⟩, ?_, rfl, ?_⟩
    · rw [push, if_neg hlabel, LabelTable.define, dif_neg hfresh]
      rfl
    · rw [Instruction.binding, if_neg hlabel]
      rfl

/-- All that a successful push does. -/
theorem push_cases (h : program.push instruction = .ok next) :
    ¬ Taken program.labels.names instruction.label
      ∧ next.instructions = program.instructions.push instruction
      ∧ next.labels.bindings = program.labels.bindings ++ instruction.binding program.size := by
  by_cases htaken : Taken program.labels.names instruction.label
  · rw [push_of_taken htaken] at h
    cases h
  · obtain ⟨other, hpush, hinstructions, hbindings⟩ := exists_push htaken
    rw [hpush] at h
    cases h
    exact ⟨htaken, hinstructions, hbindings⟩

theorem names_of_push (h : program.push instruction = .ok next) :
    next.labels.names
      = program.labels.names ++ (instruction.binding program.size).map Prod.fst := by
  obtain ⟨-, -, hbindings⟩ := push_cases h
  rw [LabelTable.names, hbindings, List.map_append]
  rfl

theorem indexed_empty : empty.Indexed :=
  rfl

theorem Indexed.push (hindexed : program.Indexed) (h : program.push instruction = .ok next) :
    next.Indexed := by
  obtain ⟨-, hinstructions, hbindings⟩ := push_cases h
  rw [Indexed, hbindings, hindexed, labelIndex, labelIndex, hinstructions, Array.toList_push,
    List.zipIdx_append, List.flatMap_append, List.zipIdx_singleton, List.flatMap_singleton,
    Array.length_toList, Nat.zero_add]
  rfl

/-! ## Pushing many instructions -/

theorem pushAll_cons {instructions : List Instruction} {last : Program}
    (h : program.pushAll (instruction :: instructions) = .ok last) :
    ∃ next, program.push instruction = .ok next ∧ next.pushAll instructions = .ok last := by
  rw [pushAll, List.foldlM_cons] at h
  cases hpush : program.push instruction with
  | error error =>
      rw [hpush] at h
      cases h
  | ok next =>
      rw [hpush] at h
      exact ⟨next, rfl, h⟩

theorem pushAll_of_push {instructions : List Instruction}
    (h : program.push instruction = .ok next) :
    program.pushAll (instruction :: instructions) = next.pushAll instructions := by
  rw [pushAll, List.foldlM_cons, h]
  rfl

theorem pushAll_append (front rest : List Instruction) :
    program.pushAll (front ++ rest) = program.pushAll front >>= (·.pushAll rest) :=
  List.foldlM_append

theorem Indexed.pushAll {instructions : List Instruction} :
    ∀ {program last : Program}, program.Indexed →
      program.pushAll instructions = .ok last → last.Indexed := by
  induction instructions with
  | nil =>
      intro program last hindexed h
      cases h
      exact hindexed
  | cons instruction instructions ih =>
      intro program last hindexed h
      obtain ⟨next, hpush, hrest⟩ := pushAll_cons h
      exact ih (hindexed.push hpush) hrest

theorem instructions_of_pushAll {instructions : List Instruction} :
    ∀ {program last : Program}, program.pushAll instructions = .ok last →
      last.instructions.toList = program.instructions.toList ++ instructions := by
  induction instructions with
  | nil =>
      intro program last h
      cases h
      rw [List.append_nil]
  | cons instruction instructions ih =>
      intro program last h
      obtain ⟨next, hpush, hrest⟩ := pushAll_cons h
      obtain ⟨-, hinstructions, -⟩ := push_cases hpush
      rw [ih hrest, hinstructions, Array.toList_push, List.append_assoc]
      rfl

/-- A program that was pushed together is made again by pushing its own instructions. -/
theorem pushAll_toList {instructions : List Instruction} {program : Program}
    (h : empty.pushAll instructions = .ok program) :
    empty.pushAll program.instructions.toList = .ok program := by
  have hsame : program.instructions.toList = instructions := instructions_of_pushAll h
  rw [hsame]
  exact h

/-- Instructions whose labels are free and differ can all be pushed. -/
theorem exists_pushAll {instructions : List Instruction} :
    ∀ {program : Program},
      (∀ made ∈ instructions, ¬ Taken program.labels.names made.label) →
      instructions.Pairwise (fun a b => a.label ≠ "" → a.label ≠ b.label) →
      ∃ last, program.pushAll instructions = .ok last := by
  induction instructions with
  | nil =>
      intro program _ _
      exact ⟨program, rfl⟩
  | cons instruction instructions ih =>
      intro program hfree hdiffer
      rw [List.pairwise_cons] at hdiffer
      obtain ⟨next, hpush, -⟩ := exists_push (hfree instruction List.mem_cons_self)
      rw [pushAll_of_push hpush]
      refine ih ?_ hdiffer.2
      rintro made hmade ⟨hlabel, hmem⟩
      rw [names_of_push hpush, List.mem_append] at hmem
      rcases hmem with hold | hnew
      · exact hfree made (List.mem_cons_of_mem _ hmade) ⟨hlabel, hold⟩
      · rw [Instruction.binding] at hnew
        split at hnew
        · cases hnew
        · next hne => exact hdiffer.1 made hmade hne (List.mem_singleton.1 hnew).symm

end Program

/-! ## What an index is good for -/

namespace LabelTable

/-- In a list that binds no label twice, looking up is being a member. -/
theorem lookup_eq_some_iff {label : String} {index : Nat} {bindings : List (String × Nat)} :
    (bindings.map Prod.fst).Nodup →
      (bindings.lookup label = some index ↔ (label, index) ∈ bindings) := by
  induction bindings with
  | nil =>
      intro _
      rw [List.lookup_nil]
      exact ⟨nofun, nofun⟩
  | cons binding bindings ih =>
      obtain ⟨first, place⟩ := binding
      intro hnodup
      rw [List.map_cons, List.nodup_cons] at hnodup
      rw [List.lookup_cons, List.mem_cons]
      by_cases hsame : label = first
      · subst hsame
        have habsent : (label, index) ∉ bindings := fun hmem =>
          hnodup.1 (List.mem_map.2 ⟨(label, index), hmem, rfl⟩)
        simp [habsent, eq_comm]
      · rw [beq_eq_false_iff_ne.2 hsame]
        simp [hsame, ih hnodup.2]

theorem find?_eq_some_iff {table : LabelTable} {label : String} {index : Nat} :
    table.find? label = some index ↔ (label, index) ∈ table.bindings :=
  lookup_eq_some_iff table.nodup

end LabelTable

namespace Program

variable {program : Program}

theorem mem_labelIndex_iff {label : String} {index : Nat} :
    (label, index) ∈ program.labelIndex
      ↔ label ≠ "" ∧ ∃ instruction, program.instructions[index]? = some instruction
          ∧ instruction.label = label := by
  rw [labelIndex, List.mem_flatMap]
  constructor
  · rintro ⟨⟨instruction, place⟩, hplace, hbinding⟩
    rw [List.mem_zipIdx_iff_getElem?, Array.getElem?_toList] at hplace
    simp only [Instruction.binding] at hbinding
    split at hbinding
    · cases hbinding
    · next hlabel =>
        cases List.mem_singleton.1 hbinding
        exact ⟨hlabel, instruction, hplace, rfl⟩
  · rintro ⟨hlabel, instruction, hplace, rfl⟩
    refine ⟨(instruction, index), ?_, ?_⟩
    · rw [List.mem_zipIdx_iff_getElem?, Array.getElem?_toList]
      exact hplace
    · simp only [Instruction.binding]
      rw [if_neg hlabel]
      exact List.mem_singleton_self _

/-- In an indexed program a label is found where the instruction that bears it stands. -/
theorem Indexed.find?_iff (hindexed : program.Indexed) {label : String} {index : Nat} :
    program.labels.find? label = some index
      ↔ label ≠ "" ∧ ∃ instruction, program.instructions[index]? = some instruction
          ∧ instruction.label = label := by
  rw [LabelTable.find?_eq_some_iff, hindexed, mem_labelIndex_iff]

/-- In an indexed program no label is borne twice. -/
theorem Indexed.unique (hindexed : program.Indexed) {j k : Nat} {a b : Instruction}
    (ha : program.instructions[j]? = some a) (hb : program.instructions[k]? = some b)
    (hlabel : a.label ≠ "") (hsame : a.label = b.label) : j = k := by
  have hj := hindexed.find?_iff.2 ⟨hlabel, a, ha, rfl⟩
  have hk := hindexed.find?_iff.2 ⟨hlabel, b, hb, hsame.symm⟩
  rw [hj] at hk
  exact Option.some.inj hk

end Program

end RegisterMachine
