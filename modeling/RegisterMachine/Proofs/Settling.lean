import RegisterMachine.Assembly.Basic
import RegisterMachine.Proofs.ProgramIndex

/-!
# Assembly as the settling of readings

Assembly takes lines in one by one and carries a workspace along. What it makes
of a line depends on that workspace in one respect only: an instruction is
refused when its label is taken. So the whole of assembly can be told in two
steps that know nothing of a workspace. `Vocabulary.readings` reads each line by
itself, and `settle` goes through the readings with the labels taken so far and
turns each instruction whose label is taken into a rejected line.

`assembleLines_settle` says that this is what assembly does: it pushes the
instructions that are left after settling, none of which is refused. And
`getElem?_settle` says which are left: those without a label, and the first of
every label.
-/

namespace RegisterMachine

namespace Reading

/-- The instruction that a reading makes, if it makes one. -/
def instruction? : Reading → Option Instruction
  | .instruction made => some made
  | _ => none

/-- What becomes of a reading when some labels are taken. -/
def settle (taken : List String) : Reading → Reading
  | .instruction made =>
    if Taken taken made.label then .rejected (.duplicateLabel made.label) made.label
    else .instruction made
  | reading => reading

/-- The labels that are taken after a settled reading. -/
def claim (taken : List String) : Reading → List String
  | .instruction made => if made.label = "" then taken else taken ++ [made.label]
  | _ => taken

theorem instruction?_eq_some_iff {reading : Reading} {made : Instruction} :
    reading.instruction? = some made ↔ reading = .instruction made := by
  cases reading <;> simp [instruction?]

theorem settle_eq_instruction_iff {reading : Reading} {taken : List String} {made : Instruction} :
    reading.settle taken = .instruction made
      ↔ reading = .instruction made ∧ ¬ Taken taken made.label := by
  cases reading with
  | instruction other =>
      rw [settle]
      split
      · next h =>
          constructor
          · nofun
          · rintro ⟨heq, hfree⟩
            cases heq
            exact absurd h hfree
      · next h =>
          constructor
          · intro heq
            cases heq
            exact ⟨rfl, h⟩
          · exact And.left
  | blank => exact ⟨nofun, nofun⟩
  | labelOnly label => exact ⟨nofun, nofun⟩
  | rejected error reference => exact ⟨nofun, nofun⟩

/-- A label is free after a reading when it was free before and the reading does not bear it. -/
theorem not_mem_claim_settle_iff {reading : Reading} {taken : List String} {label : String}
    (hlabel : label ≠ "") :
    label ∉ (reading.settle taken).claim taken
      ↔ label ∉ taken ∧ ∀ made, reading = .instruction made → made.label ≠ label := by
  cases reading with
  | instruction other =>
      have hbears : (∀ made, Reading.instruction other = .instruction made → made.label ≠ label)
          ↔ other.label ≠ label :=
        ⟨fun h => h other rfl, fun h made heq => by cases heq; exact h⟩
      rw [hbears, settle]
      split
      · next h =>
          -- The rejected instruction bears a label that is taken, so not this one.
          show label ∉ taken ↔ _
          refine ⟨fun hfree => ⟨hfree, ?_⟩, And.left⟩
          rintro rfl
          exact hfree h.2
      · rw [claim]
        split
        · next hempty =>
            rw [hempty]
            exact ⟨fun hfree => ⟨hfree, Ne.symm hlabel⟩, And.left⟩
        · rw [List.mem_append, List.mem_singleton, not_or]
          exact and_congr_right fun _ => ne_comm
  | blank => exact ⟨fun h => ⟨h, nofun⟩, And.left⟩
  | labelOnly label => exact ⟨fun h => ⟨h, nofun⟩, And.left⟩
  | rejected error reference => exact ⟨fun h => ⟨h, nofun⟩, And.left⟩

end Reading

/-- What becomes of readings one after the other, when some labels are taken to begin with. -/
def settle : List String → List Reading → List Reading
  | _, [] => []
  | taken, reading :: readings =>
    reading.settle taken :: settle ((reading.settle taken).claim taken) readings

/-- What is left as an instruction has no label, or is the first to bear it. -/
theorem getElem?_settle {made : Instruction} :
    ∀ (readings : List Reading) (taken : List String) (k : Nat),
      (settle taken readings)[k]? = some (.instruction made)
        ↔ readings[k]? = some (.instruction made) ∧ (made.label ≠ "" → made.label ∉ taken ∧
            ∀ j < k, ∀ other, readings[j]? = some (.instruction other) →
              other.label ≠ made.label) := by
  intro readings
  induction readings with
  | nil => intro taken k; simp [settle]
  | cons reading readings ih =>
      intro taken k
      cases k with
      | zero =>
          rw [settle, List.getElem?_cons_zero, List.getElem?_cons_zero, Option.some_inj,
            Option.some_inj, Reading.settle_eq_instruction_iff, Taken, not_and]
          simp
      | succ k =>
          rw [settle, List.getElem?_cons_succ, List.getElem?_cons_succ, ih]
          refine and_congr_right fun _ => forall_congr' fun hlabel => ?_
          rw [Reading.not_mem_claim_settle_iff hlabel, and_assoc]
          -- What the first reading claims is, for the rest, one more earlier instruction.
          refine and_congr_right fun _ => ?_
          constructor
          · rintro ⟨hfirst, hrest⟩ j hj other hother
            cases j with
            | zero => exact hfirst other (Option.some.inj hother)
            | succ j => exact hrest j (by omega) other hother
          · intro h
            exact ⟨fun other hother => h 0 (by omega) other (congrArg some hother),
              fun j hj => h (j + 1) (by omega)⟩

theorem take_settle (readings : List Reading) :
    ∀ (taken : List String) (k : Nat),
      (settle taken readings).take k = settle taken (readings.take k) := by
  induction readings with
  | nil => intro taken k; simp [settle]
  | cons reading readings ih =>
      intro taken k
      cases k with
      | zero => rfl
      | succ k => rw [settle, List.take_succ_cons, List.take_succ_cons, settle, ih]

theorem length_settle (readings : List Reading) :
    ∀ taken : List String, (settle taken readings).length = readings.length := by
  induction readings with
  | nil => intro taken; rfl
  | cons reading readings ih => intro taken; rw [settle, List.length_cons, List.length_cons, ih]

namespace Vocabulary

variable {vocabulary : Vocabulary}

/-- The readings of lines, the first of which has the given number. -/
def readings (vocabulary : Vocabulary) : Nat → List String → List Reading
  | _, [] => []
  | number, line :: lines =>
    vocabulary.readLine number line :: vocabulary.readings (number + 1) lines

/-- The instructions that are left after the readings of lines have been settled. -/
def settled (vocabulary : Vocabulary) (taken : List String) (number : Nat) (lines : List String) :
    List Instruction :=
  (settle taken (vocabulary.readings number lines)).filterMap Reading.instruction?

theorem settled_cons (taken : List String) (number : Nat) (line : String) (lines : List String) :
    vocabulary.settled taken number (line :: lines)
      = ((vocabulary.readLine number line).settle taken).instruction?.toList
        ++ vocabulary.settled (((vocabulary.readLine number line).settle taken).claim taken)
          (number + 1) lines := by
  rw [settled, readings, settle, List.filterMap_cons, settled]
  cases ((vocabulary.readLine number line).settle taken).instruction? <;> rfl

theorem getElem?_readings (lines : List String) :
    ∀ number k : Nat, (vocabulary.readings number lines)[k]?
      = lines[k]?.map (vocabulary.readLine (number + k)) := by
  induction lines with
  | nil => intro number k; rfl
  | cons line lines ih =>
      intro number k
      cases k with
      | zero => rfl
      | succ k =>
          rw [readings, List.getElem?_cons_succ, List.getElem?_cons_succ, ih,
            show number + 1 + k = number + (k + 1) by omega]

theorem length_readings (lines : List String) :
    ∀ number : Nat, (vocabulary.readings number lines).length = lines.length := by
  induction lines with
  | nil => intro number; rfl
  | cons line lines ih =>
      intro number
      rw [readings, List.length_cons, List.length_cons, ih]

theorem take_readings (lines : List String) :
    ∀ number k : Nat,
      (vocabulary.readings number lines).take k = vocabulary.readings number (lines.take k) := by
  induction lines with
  | nil => intro number k; simp [readings]
  | cons line lines ih =>
      intro number k
      cases k with
      | zero => rfl
      | succ k => rw [readings, List.take_succ_cons, List.take_succ_cons, readings, ih]

end Vocabulary

/-! ## What assembly does -/

/-- Taking a reading in pushes the instruction that it settles as. -/
theorem Workspace.accept_settle (workspace : Workspace) (tally : Tally) (number : Nat)
    (reading : Reading) :
    let settled := reading.settle workspace.program.labels.names
    let after := workspace.accept tally number reading
    workspace.program.pushAll settled.instruction?.toList = .ok after.1.program
      ∧ after.1.program.labels.names = settled.claim workspace.program.labels.names
      ∧ after.2.instructions = tally.instructions + settled.instruction?.toList.length := by
  cases reading with
  | instruction made =>
      simp only [Reading.settle, accept]
      split
      · next htaken =>
          rw [Program.push_of_taken htaken]
          exact ⟨rfl, rfl, rfl⟩
      · next hfree =>
          obtain ⟨program, hpush, -⟩ := Program.exists_push hfree
          rw [hpush]
          refine ⟨Program.pushAll_of_push hpush, ?_, rfl⟩
          rw [Program.names_of_push hpush, Instruction.binding, Reading.claim]
          split
          · exact List.append_nil _
          · rfl
  | blank => exact ⟨rfl, rfl, rfl⟩
  | labelOnly label => exact ⟨rfl, rfl, rfl⟩
  | rejected error reference => exact ⟨rfl, rfl, rfl⟩

/-- Assembling lines pushes the instructions that are left after settling. -/
theorem Vocabulary.assembleLines_settle (vocabulary : Vocabulary) (lines : List String) :
    ∀ (number : Nat) (workspace : Workspace) (tally : Tally),
      let left := vocabulary.settled workspace.program.labels.names number lines
      let after := vocabulary.assembleLines number lines workspace tally
      workspace.program.pushAll left = .ok after.1.program
        ∧ after.2.instructions = tally.instructions + left.length := by
  induction lines with
  | nil =>
      intro number workspace tally
      exact ⟨rfl, rfl⟩
  | cons line lines ih =>
      intro number workspace tally
      obtain ⟨hpush, hnames, hcount⟩ :=
        workspace.accept_settle tally number (vocabulary.readLine number line)
      obtain ⟨hrest, hsum⟩ := ih (number + 1)
        (workspace.accept tally number (vocabulary.readLine number line)).1
        (workspace.accept tally number (vocabulary.readLine number line)).2
      simp only [settled_cons, assembleLines] at *
      rw [hnames] at hrest hsum
      refine ⟨?_, ?_⟩
      · rw [Program.pushAll_append, hpush]
        exact hrest
      · rw [hsum, hcount, List.length_append]
        omega

/-! ## The same line at another place -/

/-- Readings that differ in the reference of a rejected line at most. -/
inductive Reading.Akin : Reading → Reading → Prop
  | same (reading : Reading) : Akin reading reading
  | rejected (error : Error) (reference other : String) :
    Akin (.rejected error reference) (.rejected error other)

namespace Vocabulary

variable {vocabulary : Vocabulary}

theorem readOperands_akin (label name : String) (scanner : Scanner) (reference other : String) :
    (vocabulary.readOperands label name scanner reference).Akin
      (vocabulary.readOperands label name scanner other) := by
  rw [readOperands, readOperands]
  cases vocabulary.decode label name scanner with
  | ok made => exact .same _
  | error error => exact .rejected error reference other

theorem readLine_akin (number other : Nat) (line : String) :
    (vocabulary.readLine number line).Akin (vocabulary.readLine other line) := by
  rw [readLine, readLine]
  rcases (Scanner.ofLine line).scan with ⟨_ | first, afterFirst⟩
  · exact .same _
  · simp only []
    split
    · exact readOperands_akin _ _ _ _ _
    · exact .same _

/-- The number of a line has no part in the instruction that it makes. -/
theorem readLine_eq_instruction {number other : Nat} {line : String} {made : Instruction}
    (h : vocabulary.readLine number line = .instruction made) :
    vocabulary.readLine other line = .instruction made := by
  have hakin := vocabulary.readLine_akin number other line
  rw [h] at hakin
  generalize vocabulary.readLine other line = reading at hakin
  cases hakin
  rfl

/-! ## Lines that all make instructions -/

/-- Lines that read as instructions which can all be pushed make a program of these and nothing
else. -/
theorem assembleLines_of_instructions (lines : List String) :
    ∀ (made : List Instruction) (number : Nat) (workspace : Workspace) (tally : Tally)
      (program : Program),
      lines.map (vocabulary.readLine 1) = made.map .instruction →
      workspace.program.pushAll made = .ok program →
      vocabulary.assembleLines number lines workspace tally
        = ({ workspace with program },
            { tally with instructions := tally.instructions + made.length }) := by
  induction lines with
  | nil =>
      intro made number workspace tally program hlines hpush
      cases made with
      | nil => cases hpush; rfl
      | cons first rest => cases hlines
  | cons line lines ih =>
      intro made number workspace tally program hlines hpush
      cases made with
      | nil => cases hlines
      | cons first rest =>
          rw [List.map_cons, List.map_cons] at hlines
          injection hlines with hline hlines
          obtain ⟨next, hfirst, hrest⟩ := Program.pushAll_cons hpush
          rw [assembleLines, readLine_eq_instruction hline, Workspace.accept, hfirst]
          simp only []
          rw [ih rest (number + 1) { workspace with program := next } tally.addInstruction program
            hlines hrest, Tally.addInstruction, List.length_cons, Nat.add_assoc, Nat.add_comm 1]

/-- A source of such lines assembles to the program, and nothing is reported on the way. -/
theorem assemble_of_instructions {source : Source} {made : List Instruction} {program : Program}
    (hfault : source.fault? = none)
    (hlines : source.lines.map (vocabulary.readLine 1) = made.map .instruction)
    (hpush : Program.empty.pushAll made = .ok program) (workspace : Workspace) :
    vocabulary.assemble source workspace
      = ({ workspace with program }, .ok { instructions := made.length, rejected := 0 }) := by
  have hrun := assembleLines_of_instructions _ made 1 { workspace with program := .empty } {}
    program hlines hpush
  simp only [assemble, hrun, hfault, Nat.zero_add]

end Vocabulary

end RegisterMachine
