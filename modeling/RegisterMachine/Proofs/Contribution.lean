import RegisterMachine.Proofs.Settling

/-!
# Which lines contribute, and what the labels of a program are

A line contributes when the program grows as it is taken in. `sizeAfter` counts
the instructions that a number of lines make, by assembling just these lines, so
that contributing is a matter of what assembly does and not of how a line looks.
It comes to this (`sizeAfter_lt_iff` and `getElem?_verdicts`): the line reads as
an instruction, and no earlier line reads as one with the same label.

An assembled program is made by pushing such instructions onto the empty
program, from which everything about its label table follows.
-/

namespace RegisterMachine

theorem getElem?_filterMap_take {α β : Type} {f : α → Option β} {list : List α} {k : Nat} {a : α}
    {b : β} (ha : list[k]? = some a) (hb : f a = some b) :
    (list.filterMap f)[((list.take k).filterMap f).length]? = some b := by
  obtain ⟨hk, hget⟩ := List.getElem?_eq_some_iff.1 ha
  have hcut : list = list.take k ++ a :: list.drop (k + 1) := by
    rw [← hget, ← List.drop_eq_getElem_cons hk, List.take_append_drop]
  conv => lhs; lhs; rw [hcut]
  rw [List.filterMap_append, List.filterMap_cons_some hb,
    List.getElem?_append_right (Nat.le_refl _), Nat.sub_self, List.getElem?_cons_zero]

namespace Vocabulary

variable {vocabulary : Vocabulary}

/-- The line at an index reads as an instruction, whether or not its label is taken. -/
def ReadsAs (vocabulary : Vocabulary) (lines : List String) (k : Nat) (made : Instruction) : Prop :=
  ∃ line, lines[k]? = some line ∧ vocabulary.readLine (k + 1) line = .instruction made

/-- The line at an index is the first to read as an instruction with its label. -/
def BearsFirst (vocabulary : Vocabulary) (lines : List String) (k : Nat) (made : Instruction) :
    Prop :=
  vocabulary.ReadsAs lines k made ∧ made.label ≠ "" ∧
    ∀ j < k, ∀ other, vocabulary.ReadsAs lines j other → other.label ≠ made.label

/-- The number of instructions that the first lines make. -/
def sizeAfter (vocabulary : Vocabulary) (lines : List String) (count : Nat) : Nat :=
  (vocabulary.assembleLines 1 (lines.take count) {} {}).1.program.size

/-- The readings of all lines, with repeated labels refused. -/
def verdicts (vocabulary : Vocabulary) (lines : List String) : List Reading :=
  settle [] (vocabulary.readings 1 lines)

theorem readsAs_iff {lines : List String} {k : Nat} {made : Instruction} :
    vocabulary.ReadsAs lines k made
      ↔ (vocabulary.readings 1 lines)[k]? = some (.instruction made) := by
  rw [getElem?_readings, Option.map_eq_some_iff, Nat.add_comm 1 k]
  rfl

theorem getElem?_verdicts {lines : List String} {k : Nat} {made : Instruction} :
    (vocabulary.verdicts lines)[k]? = some (.instruction made)
      ↔ vocabulary.ReadsAs lines k made ∧ (made.label ≠ "" →
          ∀ j < k, ∀ other, vocabulary.ReadsAs lines j other → other.label ≠ made.label) := by
  simp only [readsAs_iff]
  rw [verdicts, getElem?_settle]
  refine and_congr_right fun _ => forall_congr' fun _ => ?_
  exact ⟨And.right, fun h => ⟨List.not_mem_nil, h⟩⟩

theorem instructions_of_assembleLines (lines : List String) (number : Nat) (tally : Tally) :
    (vocabulary.assembleLines number lines {} tally).1.program.instructions.toList
      = vocabulary.settled [] number lines := by
  obtain ⟨hpush, -⟩ := vocabulary.assembleLines_settle lines number {} tally
  exact Program.instructions_of_pushAll hpush

theorem sizeAfter_eq (lines : List String) (count : Nat) :
    vocabulary.sizeAfter lines count
      = (((vocabulary.verdicts lines).take count).filterMap Reading.instruction?).length := by
  rw [sizeAfter, Program.size, ← Array.length_toList, instructions_of_assembleLines, settled,
    verdicts, take_settle, take_readings]

/-- A line contributes when it reads as an instruction whose label is not taken. -/
theorem sizeAfter_lt_iff {lines : List String} {k : Nat} :
    vocabulary.sizeAfter lines k < vocabulary.sizeAfter lines (k + 1)
      ↔ ∃ made, (vocabulary.verdicts lines)[k]? = some (.instruction made) := by
  rw [sizeAfter_eq, sizeAfter_eq, List.take_add_one, List.filterMap_append, List.length_append]
  cases hk : (vocabulary.verdicts lines)[k]? with
  | none => simp
  | some verdict =>
      cases hmade : verdict.instruction? with
      | none =>
          have hother : ∀ made, verdict ≠ .instruction made := by
            rintro made rfl
            cases hmade
          simp [hmade, hother]
      | some made =>
          obtain rfl := Reading.instruction?_eq_some_iff.1 hmade
          simp [hmade]

/-! ## The program that is assembled -/

theorem pushAll_assemble (source : Source) (workspace : Workspace) :
    Program.empty.pushAll (vocabulary.settled [] 1 source.lines)
      = .ok (vocabulary.assemble source workspace).1.program := by
  have hprogram : (vocabulary.assemble source workspace).1.program
      = (vocabulary.assembleLines 1 source.lines { workspace with program := .empty } {}).1.program
      := by
    rw [assemble]
    cases source.fault? <;> rfl
  obtain ⟨hpush, -⟩ := vocabulary.assembleLines_settle source.lines 1
    { workspace with program := .empty } {}
  rw [hprogram]
  exact hpush

theorem indexed_assemble (source : Source) (workspace : Workspace) :
    (vocabulary.assemble source workspace).1.program.Indexed :=
  Program.indexed_empty.pushAll (pushAll_assemble source workspace)

theorem instructions_assemble (source : Source) (workspace : Workspace) :
    (vocabulary.assemble source workspace).1.program.instructions.toList
      = (vocabulary.verdicts source.lines).filterMap Reading.instruction? :=
  Program.instructions_of_pushAll (pushAll_assemble source workspace)

/-- A source that can be read to its end is assembled, and the instructions are counted right. -/
theorem exists_tally_assemble {source : Source} (hfault : source.fault? = none)
    (workspace : Workspace) :
    ∃ tally, (vocabulary.assemble source workspace).2 = .ok tally
      ∧ tally.instructions
        = (vocabulary.assemble source workspace).1.program.instructions.toList.length := by
  refine ⟨(vocabulary.assembleLines 1 source.lines { workspace with program := .empty } {}).2,
    ?_, ?_⟩
  · rw [assemble, hfault]
  · obtain ⟨-, hcount⟩ := vocabulary.assembleLines_settle source.lines 1
      { workspace with program := .empty } {}
    rw [hcount, instructions_assemble]
    exact Nat.zero_add _

/-- The instruction of a line that contributes stands behind those of the lines before. -/
theorem getElem?_assemble {source : Source} {workspace : Workspace} {k : Nat} {made : Instruction}
    (h : (vocabulary.verdicts source.lines)[k]? = some (.instruction made)) :
    (vocabulary.assemble source workspace).1.program.instructions[
      vocabulary.sizeAfter source.lines k]? = some made := by
  rw [← Array.getElem?_toList, instructions_assemble, sizeAfter_eq]
  exact getElem?_filterMap_take h rfl

/-- Every instruction of an assembled program is that of a line which contributes. -/
theorem exists_readsAs_of_mem {source : Source} {workspace : Workspace} {made : Instruction}
    (h : made ∈ (vocabulary.assemble source workspace).1.program.instructions) :
    ∃ k, vocabulary.ReadsAs source.lines k made := by
  rw [← Array.mem_toList_iff, instructions_assemble, List.mem_filterMap] at h
  obtain ⟨verdict, hmem, hmade⟩ := h
  obtain ⟨k, hk⟩ := List.mem_iff_getElem?.1 hmem
  rw [Reading.instruction?_eq_some_iff.1 hmade] at hk
  exact ⟨k, (getElem?_verdicts.1 hk).1⟩

/-- The label table of an assembled program is the index of its instructions, whatever ended the
reading of the source. So a binding points at the instruction that bears the label, and no label is
borne twice. It is the first line to read as an instruction with a label that binds it, and a label
that only rejected lines bear is bound by none of them. -/
theorem labels_eq_index_of_assemble (vocabulary : Vocabulary) (source : Source)
    (workspace : Workspace) :
    let program := (vocabulary.assemble source workspace).1.program
    program.labels.bindings = program.labelIndex
      ∧ (∀ label index, (label, index) ∈ program.labels.bindings →
          ∃ made, program.instructions[index]? = some made ∧ made.label = label)
      ∧ (∀ (j k : Nat) (a b : Instruction), program.instructions[j]? = some a →
          program.instructions[k]? = some b → a.label ≠ "" → a.label = b.label → j = k)
      ∧ (∀ k made, vocabulary.BearsFirst source.lines k made →
          program.labels.find? made.label = some (vocabulary.sizeAfter source.lines k)
            ∧ program.instructions[vocabulary.sizeAfter source.lines k]? = some made)
      ∧ (∀ label, (∀ k made, vocabulary.ReadsAs source.lines k made → made.label ≠ label) →
          program.labels.find? label = none) := by
  intro program
  have hindexed : program.Indexed := indexed_assemble source workspace
  refine ⟨hindexed, ?_, ?_, ?_, ?_⟩
  · intro label index hmem
    rw [hindexed, Program.mem_labelIndex_iff] at hmem
    exact hmem.2
  · intro j k a b ha hb hlabel hsame
    exact hindexed.unique ha hb hlabel hsame
  · rintro k made ⟨hreads, hlabel, hfirst⟩
    have hplace : program.instructions[vocabulary.sizeAfter source.lines k]? = some made :=
      getElem?_assemble (getElem?_verdicts.2 ⟨hreads, fun _ => hfirst⟩)
    exact ⟨hindexed.find?_iff.2 ⟨hlabel, made, hplace, rfl⟩, hplace⟩
  · intro label hnone
    cases hfind : program.labels.find? label with
    | none => rfl
    | some index =>
        obtain ⟨-, made, hplace, hlabel⟩ := hindexed.find?_iff.1 hfind
        obtain ⟨k, hreads⟩ := exists_readsAs_of_mem (Array.mem_of_getElem? hplace)
        exact absurd hlabel (hnone k made hreads)

end Vocabulary

end RegisterMachine
