import RegisterMachine.Proofs.Contribution
import RegisterMachine.Proofs.SourceText

/-!
# Lines that contribute nothing have no influence

A line that makes no instruction can be deleted from a source, whatever was
wrong with it, and the program stays the same. With all such lines deleted there
is nothing left to complain about.

The argument compares two runs over different texts. On the side of the text, a
source is cut into its lines together with what ends them (`cutLines`), so that
deleting lines is taking a sublist and putting it together again; `LineCut` says
which lists of lines are the cut of a text, and a sublist of one is one. On the
side of assembly, the lines that are kept are just those whose instructions were
pushed, and pushing the same instructions again makes the same program.
-/

namespace RegisterMachine

namespace Source

/-- A text cut after each of its line feeds. -/
def cutLines : List Char → List (List Char)
  | [] => []
  | c :: rest =>
    if c = '\n' then ['\n'] :: cutLines rest
    else match cutLines rest with
      | [] => [[c]]
      | line :: lines => (c :: line) :: lines

/-- Lines with what ends them: a line feed ends each, and may be missing from the last. -/
inductive LineCut : List (List Char) → Prop
  | nil : LineCut []
  | last {line : List Char} (hfeed : '\n' ∉ line) (hne : line ≠ []) : LineCut [line]
  | cons {line : List Char} {lines : List (List Char)} (hfeed : '\n' ∉ line)
      (hrest : LineCut lines) : LineCut ((line ++ ['\n']) :: lines)

/-- A line without what ends it. -/
def lineText (line : List Char) : List Char :=
  if line.getLast? = some '\n' then cutReturn line.dropLast else line

theorem flatten_cutLines (text : List Char) : (cutLines text).flatten = text := by
  induction text with
  | nil => rfl
  | cons c rest ih =>
      rw [cutLines]
      split
      · next hc =>
          rw [List.flatten_cons, ih, hc]
          rfl
      · cases hcut : cutLines rest with
        | nil =>
            rw [hcut] at ih
            rw [← ih]
            rfl
        | cons line lines =>
            rw [hcut] at ih
            rw [← ih]
            rfl

theorem lineCut_cutLines (text : List Char) : LineCut (cutLines text) := by
  induction text with
  | nil => exact .nil
  | cons c rest ih =>
      rw [cutLines]
      split
      · exact @LineCut.cons [] _ List.not_mem_nil ih
      · next hc =>
          have hcons : ∀ line : List Char, '\n' ∉ line → '\n' ∉ c :: line := by
            intro line hfeed hmem
            rcases List.mem_cons.1 hmem with heq | htail
            · exact hc heq.symm
            · exact hfeed htail
          generalize cutLines rest = pieces at ih
          cases ih with
          | nil => exact .last (hcons [] List.not_mem_nil) (List.cons_ne_nil _ _)
          | last hfeed hne => exact .last (hcons _ hfeed) (List.cons_ne_nil _ _)
          | @cons line lines hfeed hrest => exact @LineCut.cons (c :: line) _ (hcons _ hfeed) hrest

theorem LineCut.sublist {lines : List (List Char)} (h : LineCut lines) :
    ∀ {kept : List (List Char)}, kept.Sublist lines → LineCut kept := by
  induction h with
  | nil =>
      intro kept hsub
      rw [List.sublist_nil.1 hsub]
      exact .nil
  | last hfeed hne =>
      intro kept hsub
      cases hsub with
      | cons _ hnone =>
          rw [List.sublist_nil.1 hnone]
          exact .nil
      | cons_cons _ hnone =>
          rw [List.sublist_nil.1 hnone]
          exact .last hfeed hne
  | cons hfeed _ ih =>
      intro kept hsub
      cases hsub with
      | cons _ hrest => exact ih hrest
      | cons_cons _ hrest => exact .cons hfeed (ih hrest)

/-- The lines of a text are its pieces without their ends. -/
theorem textLines_flatten {lines : List (List Char)} (h : LineCut lines) :
    textLines lines.flatten = lines.map lineText := by
  induction h with
  | nil => rfl
  | last hfeed hne =>
      rw [List.flatten_singleton, textLines_of_not_mem hfeed, if_neg hne, List.map_singleton,
        lineText, if_neg fun hlast => hfeed (List.mem_of_getLast? hlast)]
  | cons hfeed _ ih =>
      rw [List.flatten_cons, List.append_assoc, List.map_cons, lineText, List.getLast?_concat,
        if_pos rfl, List.dropLast_concat, ← ih]
      exact textLines_append hfeed _

theorem lines_ofText_eq_map (text : String) :
    (ofText text).lines
      = (cutLines text.toList).map fun line => String.ofList (lineText line) := by
  have hlines := textLines_flatten (lineCut_cutLines text.toList)
  rw [flatten_cutLines] at hlines
  rw [lines_ofText, hlines, List.map_map]
  rfl

end Source

namespace Vocabulary

variable {vocabulary : Vocabulary}

/-- A line contributes when the program is larger with it than without. -/
def contributes (vocabulary : Vocabulary) (lines : List String) (k : Nat) : Bool :=
  decide (vocabulary.sizeAfter lines k < vocabulary.sizeAfter lines (k + 1))

/-- The lines of a text that contribute, with what ends them. -/
def keptLines (vocabulary : Vocabulary) (text : String) : List (List Char) :=
  ((Source.cutLines text.toList).zipIdx.filter fun entry =>
    vocabulary.contributes (Source.ofText text).lines entry.2).map Prod.fst

/-- A text without the lines that contribute nothing. -/
def contributing (vocabulary : Vocabulary) (text : String) : String :=
  String.ofList (vocabulary.keptLines text).flatten

theorem keptLines_sublist (text : String) :
    (vocabulary.keptLines text).Sublist (Source.cutLines text.toList) := by
  have hfilter : ((Source.cutLines text.toList).zipIdx.filter fun entry =>
      vocabulary.contributes (Source.ofText text).lines entry.2).Sublist
        (Source.cutLines text.toList).zipIdx := List.filter_sublist
  have hsub := hfilter.map Prod.fst
  rwa [List.zipIdx_map_fst] at hsub

theorem lines_contributing (text : String) :
    (Source.ofText (vocabulary.contributing text)).lines
      = (vocabulary.keptLines text).map fun line => String.ofList (Source.lineText line) := by
  have hcut : Source.LineCut (vocabulary.keptLines text) :=
    (Source.lineCut_cutLines text.toList).sublist (keptLines_sublist text)
  rw [Source.lines_ofText, contributing, String.toList_ofList, Source.textLines_flatten hcut,
    List.map_map]
  rfl

/-- Keeping the pieces whose verdicts are instructions keeps just these instructions. -/
theorem map_filter_zipIdx {α : Type} {keep : Nat → Bool} {read : α → Reading} (pieces : List α) :
    ∀ (verdicts : List Reading) (n : Nat), pieces.length = verdicts.length →
      (∀ k, keep (n + k) = true
        ↔ ∃ made : Instruction, verdicts[k]? = some (.instruction made)) →
      (∀ (k : Nat) (piece : α) (made : Instruction), pieces[k]? = some piece →
        verdicts[k]? = some (.instruction made) → read piece = .instruction made) →
      (((pieces.zipIdx n).filter fun entry => keep entry.2).map Prod.fst).map read
        = (verdicts.filterMap Reading.instruction?).map Reading.instruction := by
  induction pieces with
  | nil =>
      intro verdicts n hlength _ _
      cases verdicts with
      | nil => rfl
      | cons verdict verdicts => cases hlength
  | cons piece pieces ih =>
      intro verdicts n hlength hkeep hread
      cases verdicts with
      | nil => cases hlength
      | cons verdict verdicts =>
          have hrest := ih verdicts (n + 1) (Nat.succ.inj hlength)
            (fun k => by
              have h := hkeep (k + 1)
              rwa [List.getElem?_cons_succ, show n + (k + 1) = n + 1 + k by omega] at h)
            (fun k => hread (k + 1))
          -- The head is kept just when its verdict is an instruction.
          have hfirst := hkeep 0
          rw [Nat.add_zero, List.getElem?_cons_zero] at hfirst
          rw [List.zipIdx_cons, List.filter_cons, List.filterMap_cons]
          cases hmade : verdict.instruction? with
          | none =>
              have hdrop : ¬ keep n = true := by
                rw [hfirst]
                rintro ⟨made, hverdict⟩
                rw [Option.some.inj hverdict] at hmade
                cases hmade
              rw [if_neg hdrop]
              exact hrest
          | some made =>
              have hverdict := Reading.instruction?_eq_some_iff.1 hmade
              have hsome : (verdict :: verdicts)[0]? = some (.instruction made) :=
                congrArg some hverdict
              rw [if_pos (hfirst.2 ⟨made, hsome⟩), List.map_cons, List.map_cons, hrest,
                hread 0 piece made rfl hsome]
              rfl

theorem length_cutLines (text : String) :
    (Source.cutLines text.toList).length
      = (vocabulary.verdicts (Source.ofText text).lines).length := by
  rw [verdicts, length_settle, length_readings, Source.lines_ofText_eq_map, List.length_map]

/-- The lines that are kept read as the instructions of the program, one each. -/
theorem readings_contributing (text : String) (workspace : Workspace) :
    (Source.ofText (vocabulary.contributing text)).lines.map (vocabulary.readLine 1)
      = (vocabulary.assemble (.ofText text) workspace).1.program.instructions.toList.map
          Reading.instruction := by
  rw [instructions_assemble, lines_contributing, List.map_map, keptLines]
  refine map_filter_zipIdx (Source.cutLines text.toList) _ 0 (length_cutLines text) ?_ ?_
  · intro k
    rw [Nat.zero_add, contributes, decide_eq_true_iff]
    exact sizeAfter_lt_iff
  · intro k piece made hpiece hverdict
    obtain ⟨line, hline, hread⟩ := (getElem?_verdicts.1 hverdict).1
    rw [Source.lines_ofText_eq_map, List.getElem?_map, hpiece] at hline
    rw [← Option.some.inj hline] at hread
    rw [Function.comp_apply]
    exact readLine_eq_instruction hread

/-- Deleting the lines that contribute nothing deletes everything that was wrong with a text and
nothing else: what is left makes the same program, of as many instructions, and nothing is reported
on the way. -/
theorem assemble_contributing (vocabulary : Vocabulary) (text : String)
    (workspace other : Workspace) :
    ∃ tally, (vocabulary.assemble (.ofText text) workspace).2 = .ok tally
      ∧ vocabulary.assemble (.ofText (vocabulary.contributing text)) other
        = ({ other with program := (vocabulary.assemble (.ofText text) workspace).1.program },
            .ok { instructions := tally.instructions, rejected := 0 }) := by
  obtain ⟨tally, htally, hcount⟩ := vocabulary.exists_tally_assemble (Source.fault?_ofText text)
    workspace
  refine ⟨tally, htally, ?_⟩
  rw [hcount]
  have hpush := Program.pushAll_toList (vocabulary.pushAll_assemble (.ofText text) workspace)
  exact assemble_of_instructions (Source.fault?_ofText _) (readings_contributing text workspace)
    hpush other

end Vocabulary

end RegisterMachine
