import RegisterMachine.Proofs.BrokenInput
import RegisterMachine.Proofs.Contribution
import RegisterMachine.Proofs.LineGrammar
import Mathlib.Data.List.Forall2

/-!
# Every line is accounted for, once

A line that is more than a label bears an instruction: it has two tokens, or its
only one is a mnemonic. Such a line adds an instruction to the program or it adds
a complaint to the console, never both and never neither, and no other line adds
anything. `Fate` says which, by the meaning of the line and of those before it,
and what the complaint is: the defect of the line, or that an earlier line has
its label, either way with the reference that the line goes by.

There are two ways for a line to be rejected, when it is read and when its
instruction is pushed. Settling has made one of them, so that all that remains is
to see that the verdicts on the lines are the fates, that complaining follows the
verdicts (`assembleLines_complaints`) as pushing does, and to leave the verdicts
out that count for nothing.
-/

namespace RegisterMachine

namespace Reading

/-- What a rejected line puts on the console. -/
def complaint? : Reading → Option String
  | .rejected error reference =>
    some ("Parse Error: " ++ error.message ++ " on line " ++ reference)
  | _ => none

/-- Whether there is an instruction on the line, be it only one that was meant to be. -/
def counts (reading : Reading) : Bool :=
  reading.instruction?.isSome || reading.complaint?.isSome

theorem length_filter_counts (readings : List Reading) :
    (readings.filterMap instruction?).length + (readings.filterMap complaint?).length
      = (readings.filter counts).length := by
  induction readings with
  | nil => rfl
  | cons reading readings ih =>
      cases reading <;>
        simp [List.filterMap_cons, instruction?, complaint?, counts] at ih ⊢ <;>
        omega

theorem filterMap_filter_counts {α : Type} {f : Reading → Option α}
    (hf : ∀ reading, reading.counts = false → f reading = none) (readings : List Reading) :
    (readings.filter counts).filterMap f = readings.filterMap f := by
  rw [List.filterMap_filter]
  congr
  funext reading
  cases hcounts : reading.counts with
  | true => rfl
  | false => exact (hf reading hcounts).symm

/-! What does not count is neither an instruction nor a complaint, and may be left out. -/

theorem instructions_filter_counts (readings : List Reading) :
    (readings.filter counts).filterMap instruction? = readings.filterMap instruction? := by
  refine filterMap_filter_counts (fun reading hcounts => ?_) readings
  cases reading with
  | instruction made => cases hcounts
  | _ => rfl

theorem complaints_filter_counts (readings : List Reading) :
    (readings.filter counts).filterMap complaint? = readings.filterMap complaint? := by
  refine filterMap_filter_counts (fun reading hcounts => ?_) readings
  cases reading with
  | rejected error reference => cases hcounts
  | _ => rfl

end Reading

/-! ## Complaining follows the verdicts -/

theorem Workspace.accept_complaint (workspace : Workspace) (tally : Tally) (number : Nat)
    (reading : Reading) :
    let settled := reading.settle workspace.program.labels.names
    let after := workspace.accept tally number reading
    after.1.console.lines.toList = workspace.console.lines.toList ++ settled.complaint?.toList
      ∧ after.2.rejected = tally.rejected + settled.complaint?.toList.length := by
  cases reading with
  | instruction made =>
      by_cases htaken : Taken workspace.program.labels.names made.label
      · simp only [Reading.settle, accept, if_pos htaken, Program.push_of_taken htaken]
        exact ⟨Console.toList_addLine _ _, rfl⟩
      · obtain ⟨program, hpush, -⟩ := Program.exists_push htaken
        simp only [Reading.settle, accept, if_neg htaken, hpush]
        exact ⟨(List.append_nil _).symm, rfl⟩
  | blank => exact ⟨(List.append_nil _).symm, rfl⟩
  | labelOnly label => exact ⟨(List.append_nil _).symm, rfl⟩
  | rejected error reference => exact ⟨Console.toList_addLine _ _, rfl⟩

theorem Vocabulary.assembleLines_complaints (vocabulary : Vocabulary) (lines : List String) :
    ∀ (number : Nat) (workspace : Workspace) (tally : Tally),
      let complaints := (settle workspace.program.labels.names
        (vocabulary.readings number lines)).filterMap Reading.complaint?
      let after := vocabulary.assembleLines number lines workspace tally
      after.1.console.lines.toList = workspace.console.lines.toList ++ complaints
        ∧ after.2.rejected = tally.rejected + complaints.length := by
  induction lines with
  | nil =>
      intro number workspace tally
      exact ⟨(List.append_nil _).symm, rfl⟩
  | cons line lines ih =>
      intro number workspace tally
      have hnames := (workspace.accept_settle tally number (vocabulary.readLine number line)).2.1
      obtain ⟨hlines, hcount⟩ :=
        workspace.accept_complaint tally number (vocabulary.readLine number line)
      obtain ⟨hrest, hsum⟩ := ih (number + 1)
        (workspace.accept tally number (vocabulary.readLine number line)).1
        (workspace.accept tally number (vocabulary.readLine number line)).2
      simp only [hnames, hlines, hcount] at hrest hsum
      simp only [readings, settle, List.filterMap_cons, assembleLines, hrest, hsum]
      cases ((vocabulary.readLine number line).settle
        workspace.program.labels.names).complaint? <;> simp [Nat.add_assoc, Nat.add_comm 1]

/-! ## What becomes of a line -/

theorem exists_getElem?_settle (readings : List Reading) :
    ∀ (taken : List String) (k : Nat),
      ∃ now, (settle taken readings)[k]? = readings[k]?.map (Reading.settle now) := by
  induction readings with
  | nil => exact fun taken k => ⟨taken, rfl⟩
  | cons reading readings ih =>
      intro taken k
      cases k with
      | zero => exact ⟨taken, rfl⟩
      | succ k => exact ih ((reading.settle taken).claim taken) k

/-- An earlier line bears the label. -/
def Repeats (lines : List String) (k : Nat) (label : String) : Prop :=
  label ≠ "" ∧ ∃ j < k, ∃ line other, lines[j]? = some line
    ∧ Meaning (j + 1) (Scanner.ofLine line).tokens (.instruction other) ∧ other.label = label

/-- What becomes of a line that bears an instruction. Lines are numbered from one, whatever is on
them. -/
inductive Fate (lines : List String) : String × Nat → Reading → Prop
  | added {line : String} {k : Nat} {made : Instruction}
      (hmeans : Meaning (k + 1) (Scanner.ofLine line).tokens (.instruction made))
      (hfirst : ¬ Repeats lines k made.label) :
      Fate lines (line, k) (.instruction made)
  | defective {line label name : String} {operands : List String} {k : Nat} {error : Error}
      (hparts : Statement (Scanner.ofLine line).tokens label name operands)
      (hmeans : Meaning (k + 1) (Scanner.ofLine line).tokens
        (.rejected error (lineReference (k + 1) label))) :
      Fate lines (line, k) (.rejected error (lineReference (k + 1) label))
  | repeated {line name : String} {operands : List String} {k : Nat} {made : Instruction}
      (hparts : Statement (Scanner.ofLine line).tokens made.label name operands)
      (hmeans : Meaning (k + 1) (Scanner.ofLine line).tokens (.instruction made))
      (hearlier : Repeats lines k made.label) :
      Fate lines (line, k)
        (.rejected (.duplicateLabel made.label) (lineReference (k + 1) made.label))

namespace Vocabulary

variable {vocabulary : Vocabulary} {lines : List String}

/-- Whether there is more on a line than a label. -/
def bearsInstruction (vocabulary : Vocabulary) (line : String) : Bool :=
  match (Scanner.ofLine line).tokens with
  | [] => false
  | [word] => vocabulary.contains word
  | _ :: _ :: _ => true

theorem bearsInstruction_of_statement {line label name : String} {operands : List String}
    (hparts : Statement (Scanner.ofLine line).tokens label name operands) :
    standard.bearsInstruction line = true := by
  rw [bearsInstruction]
  generalize (Scanner.ofLine line).tokens = tokens at hparts
  cases hparts with
  | @unlabeled _ operands hknown hnext =>
      cases operands with
      | nil => exact contains_standard_iff.2 hknown
      | cons second rest => rfl
  | labeled _ => rfl

theorem bearsInstruction_of_meaning {number : Nat} {line : String} {reading : Reading}
    (h : Meaning number (Scanner.ofLine line).tokens reading) :
    standard.bearsInstruction line = reading.counts := by
  generalize htokens : (Scanner.ofLine line).tokens = tokens at h
  cases h with
  | blank => simp [bearsInstruction, htokens, Reading.counts, Reading.instruction?,
      Reading.complaint?]
  | labelOnly hunknown =>
      simp only [bearsInstruction, htokens]
      exact Bool.eq_false_iff.2 fun h => hunknown (contains_standard_iff.1 h)
  | instruction hparts hnamed hfilled => exact bearsInstruction_of_statement (htokens ▸ hparts)
  | unknown hparts hunknown => exact bearsInstruction_of_statement (htokens ▸ hparts)
  | defect hparts hnamed hwrong => exact bearsInstruction_of_statement (htokens ▸ hparts)

theorem exists_parts_of_instruction {number : Nat} {tokens : List String} {made : Instruction}
    (h : Meaning number tokens (.instruction made)) :
    ∃ name operands, Statement tokens made.label name operands := by
  cases h with
  | instruction hparts hnamed hfilled => exact ⟨_, _, hparts⟩

theorem exists_parts_of_rejected {number : Nat} {tokens : List String} {error : Error}
    {reference : String} (h : Meaning number tokens (.rejected error reference)) :
    ∃ label name operands, Statement tokens label name operands
      ∧ reference = lineReference number label := by
  cases h with
  | unknown hparts hunknown => exact ⟨_, _, _, hparts, rfl⟩
  | defect hparts hnamed hwrong => exact ⟨_, _, _, hparts, rfl⟩

theorem exists_meaning_readLine (number : Nat) (line : String) :
    Meaning number (Scanner.ofLine line).tokens (standard.readLine number line) := by
  obtain ⟨reading, hmeaning⟩ := exists_meaning number (Scanner.ofLine line)
  rwa [readLine_of_meaning hmeaning]

theorem repeats_iff {k : Nat} {label : String} :
    Repeats lines k label ↔ label ≠ "" ∧ ∃ j < k, ∃ other,
      standard.ReadsAs lines j other ∧ other.label = label := by
  refine and_congr_right fun _ => exists_congr fun j => and_congr_right fun _ => ?_
  constructor
  · rintro ⟨line, other, hline, hmeaning, hlabel⟩
    exact ⟨other, ⟨line, hline, readLine_of_meaning hmeaning⟩, hlabel⟩
  · rintro ⟨other, ⟨line, hline, hread⟩, hlabel⟩
    exact ⟨line, other, hline, hread ▸ exists_meaning_readLine (j + 1) line, hlabel⟩

theorem verdict_eq_instruction_iff {k : Nat} {line : String} {made : Instruction}
    (hline : lines[k]? = some line) (hread : standard.readLine (k + 1) line = .instruction made) :
    (standard.verdicts lines)[k]? = some (.instruction made) ↔ ¬ Repeats lines k made.label := by
  have hreads : standard.ReadsAs lines k made := ⟨line, hline, hread⟩
  rw [getElem?_verdicts, repeats_iff]
  simp only [hreads, true_and]
  push Not
  rfl

/-- The verdict on a line is its fate. -/
theorem fate_of_verdict {k : Nat} {line : String} {verdict : Reading}
    (hline : lines[k]? = some line) (hverdict : (standard.verdicts lines)[k]? = some verdict) :
    standard.bearsInstruction line = verdict.counts
      ∧ (verdict.counts = true → Fate lines (line, k) verdict) := by
  have hmeaning := exists_meaning_readLine (k + 1) line
  rw [bearsInstruction_of_meaning hmeaning]
  obtain ⟨now, hsettled⟩ := exists_getElem?_settle (standard.readings 1 lines) [] k
  rw [← verdicts, hverdict, getElem?_readings, hline, Option.map_some, Option.map_some,
    Option.some_inj, Nat.add_comm 1] at hsettled
  cases hread : standard.readLine (k + 1) line with
  | blank =>
      rw [hread] at hsettled
      subst hsettled
      exact ⟨rfl, fun hcounts => absurd hcounts Bool.false_ne_true⟩
  | labelOnly label =>
      rw [hread] at hsettled
      subst hsettled
      exact ⟨rfl, fun hcounts => absurd hcounts Bool.false_ne_true⟩
  | rejected error reference =>
      rw [hread] at hsettled hmeaning
      subst hsettled
      obtain ⟨label, name, operands, hparts, rfl⟩ := exists_parts_of_rejected hmeaning
      exact ⟨rfl, fun _ => .defective hparts hmeaning⟩
  | instruction made =>
      rw [hread] at hsettled hmeaning
      have hfirst := verdict_eq_instruction_iff hline hread
      rw [hverdict, Option.some_inj] at hfirst
      by_cases htaken : Taken now made.label
      · -- The verdict is not the instruction, which leaves an earlier line with its label.
        rw [Reading.settle, if_pos htaken] at hsettled
        subst hsettled
        obtain ⟨name, operands, hparts⟩ := exists_parts_of_instruction hmeaning
        have hearlier : Repeats lines k made.label := by
          refine Classical.byContradiction fun hfree => ?_
          cases hfirst.2 hfree
        have hfate := Fate.repeated hparts hmeaning hearlier
        rw [lineReference, if_neg htaken.1] at hfate
        exact ⟨rfl, fun _ => hfate⟩
      · rw [Reading.settle, if_neg htaken] at hsettled
        exact ⟨by rw [hsettled], fun _ => hsettled ▸ .added hmeaning (hfirst.1 hsettled)⟩

/-! ## The account -/

theorem forall₂_filter {α β : Type} {R S : α → β → Prop} {p : α → Bool} {q : β → Bool}
    {front : List α} {back : List β}
    (hRS : ∀ a b, R a b → p a = q b ∧ (q b = true → S a b)) (h : List.Forall₂ R front back) :
    List.Forall₂ S (front.filter p) (back.filter q) := by
  induction h with
  | nil => exact .nil
  | @cons a b front back hab _ ih =>
      obtain ⟨hpq, hS⟩ := hRS a b hab
      rw [List.filter_cons, List.filter_cons, hpq]
      split
      · next hq => exact .cons (hS hq) ih
      · exact ih

theorem fates_of_verdicts (lines : List String) :
    List.Forall₂ (Fate lines)
      (lines.zipIdx.filter fun entry => standard.bearsInstruction entry.1)
      ((standard.verdicts lines).filter Reading.counts) := by
  have hverdicts : List.Forall₂ (fun entry verdict =>
      standard.bearsInstruction entry.1 = verdict.counts
        ∧ (verdict.counts = true → Fate lines entry verdict))
      lines.zipIdx (standard.verdicts lines) := by
    rw [List.forall₂_iff_get]
    constructor
    · rw [List.length_zipIdx, verdicts, length_settle, length_readings]
    · intro k hk hkVerdict
      rw [List.length_zipIdx] at hk
      have hentry : lines.zipIdx.get ⟨k, by simpa using hk⟩ = (lines[k], k) := by simp
      rw [hentry]
      exact fate_of_verdict (List.getElem?_eq_getElem hk) (List.getElem?_eq_getElem hkVerdict)
  refine forall₂_filter ?_ hverdicts
  exact fun entry verdict h => h

theorem length_filter_zipIdx {α : Type} (p : α → Bool) (pieces : List α) :
    (pieces.zipIdx.filter fun entry => p entry.1).length = (pieces.filter p).length := by
  conv => rhs; rw [← List.zipIdx_map_fst 0 pieces, List.filter_map, List.length_map]
  rfl

/-- The verdicts tell what a text adds to the console, and the tally. -/
theorem exists_tally_verdicts (vocabulary : Vocabulary) (text : String) (workspace : Workspace) :
    let verdicts := vocabulary.verdicts (Source.ofText text).lines
    let assembled := vocabulary.assemble (.ofText text) workspace
    ∃ tally : Tally, assembled.2 = .ok tally
      ∧ tally.instructions = assembled.1.program.size
      ∧ tally.rejected = (verdicts.filterMap Reading.complaint?).length
      ∧ assembled.1.console.lines.toList
        = workspace.console.lines.toList ++ verdicts.filterMap Reading.complaint? := by
  obtain ⟨tally, htally, hcount⟩ :=
    vocabulary.exists_tally_assemble (Source.fault?_ofText text) workspace
  obtain ⟨hconsole, hrejected⟩ := vocabulary.assembleLines_complaints (Source.ofText text).lines 1
    { workspace with program := .empty } {}
  refine ⟨tally, htally, hcount, ?_, ?_⟩
  · rw [assemble_ofText, Except.ok.injEq] at htally
    rw [← htally]
    exact hrejected.trans (Nat.zero_add _)
  · rw [assemble_ofText]
    exact hconsole

/-- A text is accounted for by one entry for each of its lines that bears an instruction, in their
order, and each entry is the fate of its line: an instruction or a rejection. The instructions of
the account are the program, and its rejections are what is added to the console. The tally counts
both, and so all of these lines. -/
theorem exists_account (text : String) (workspace : Workspace) :
    let lines := (Source.ofText text).lines
    ∃ (after : Workspace) (tally : Tally) (account : List Reading),
      standard.assemble (.ofText text) workspace = (after, .ok tally)
        ∧ List.Forall₂ (Fate lines)
          (lines.zipIdx.filter fun entry => standard.bearsInstruction entry.1) account
        ∧ tally.instructions + tally.rejected = (lines.filter standard.bearsInstruction).length
        ∧ tally.instructions = after.program.size
        ∧ after.program.instructions.toList = account.filterMap Reading.instruction?
        ∧ after.console.lines.toList
          = workspace.console.lines.toList ++ account.filterMap Reading.complaint?
        ∧ tally.rejected = (account.filterMap Reading.complaint?).length := by
  intro lines
  obtain ⟨tally, htally, hsize, hrejected, hconsole⟩ :=
    standard.exists_tally_verdicts text workspace
  have hfates := fates_of_verdicts lines
  have hinstructions := standard.instructions_assemble (.ofText text) workspace
  refine ⟨_, tally, (standard.verdicts lines).filter Reading.counts, Prod.ext rfl htally, hfates,
    ?_, hsize, ?_, ?_, ?_⟩
  · rw [hsize, hrejected, Program.size, ← Array.length_toList, hinstructions,
      Reading.length_filter_counts, ← hfates.length_eq, length_filter_zipIdx]
  · rw [Reading.instructions_filter_counts]
    exact hinstructions
  · rw [Reading.complaints_filter_counts]
    exact hconsole
  · rw [Reading.complaints_filter_counts]
    exact hrejected

/-- The empty line counts as a line, and the lonely label does not make its label a repeated one. -/
example :
    (standard.assemble (.ofText "x out 1\n\ny\nx out 2\nout one\ny out 3") {}).1.console.lines
      = #["Parse Error: Duplicate label x on line x",
          "Parse Error: Expected register index, found one on line 5"] := by
  decide +kernel

end Vocabulary

end RegisterMachine
