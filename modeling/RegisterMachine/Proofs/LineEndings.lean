import RegisterMachine.Proofs.Concatenation
import Mathlib.Data.List.Forall2

/-!
# How lines end makes no difference

Carriage returns may be put in front of any line feed of a text and at its end,
and nothing comes of it: not for the program, nor for the console, the log and
the tally. So a text may end its lines in either manner, or in both by turns.

Carriage returns are taken off in two places. Reading takes one off in front of a
line feed and none at the end of the text; a scanner takes off all that a line
ends in. The first place makes no difference by itself, because the second comes
after it. Nor does it matter that an unfinished line is left out when it is empty,
since an empty line does nothing. So a text is assembled as its pieces between
line feeds are, whatever reading has made of them (`assembleLines_ofText`), and
the pieces of the other text are the same but for their ends.
-/

namespace RegisterMachine

namespace Source

/-- Two texts, the second of which has carriage returns at the ends of its lines besides, as many in
each place as one likes. -/
inductive ReturnsAdded : List Char → List Char → Prop
  | last {line : List Char} (hfree : '\n' ∉ line) (count : Nat) :
      ReturnsAdded line (line ++ List.replicate count '\r')
  | line {line text other : List Char} (hfree : '\n' ∉ line) (count : Nat)
      (hrest : ReturnsAdded text other) :
      ReturnsAdded (line ++ '\n' :: text) (line ++ List.replicate count '\r' ++ '\n' :: other)

/-- A text with a carriage return put in front of each line feed. -/
def withReturns (text : List Char) : List Char :=
  text.flatMap fun c => if c = '\n' then ['\r', '\n'] else [c]

theorem ReturnsAdded.cons {c : Char} {text other : List Char} (hc : c ≠ '\n')
    (h : ReturnsAdded text other) : ReturnsAdded (c :: text) (c :: other) := by
  have hcons : ∀ {line : List Char}, '\n' ∉ line → '\n' ∉ c :: line := by
    intro line hfree
    rw [List.mem_cons, not_or]
    exact ⟨Ne.symm hc, hfree⟩
  cases h with
  | last hfree count => exact .last (hcons hfree) count
  | line hfree count hrest => exact .line (hcons hfree) count hrest

theorem returnsAdded_withReturns (text : List Char) : ReturnsAdded text (withReturns text) := by
  induction text with
  | nil => exact .last List.not_mem_nil 0
  | cons c text ih =>
      rw [withReturns, List.flatMap_cons]
      split
      · next hc =>
          subst hc
          exact .line List.not_mem_nil 1 ih
      · next hc => exact .cons hc ih

/-- The pieces of the two texts differ in what they end in. -/
theorem ReturnsAdded.forall₂_splitOn {text other : List Char} (h : ReturnsAdded text other) :
    List.Forall₂ (fun piece longer => ∃ count, longer = piece ++ List.replicate count '\r')
      (text.splitOn '\n') (other.splitOn '\n') := by
  have hlonger : ∀ {line : List Char} (count : Nat), '\n' ∉ line →
      '\n' ∉ line ++ List.replicate count '\r' := by
    intro line count hfree
    rw [List.mem_append, not_or]
    exact ⟨hfree, fun hmem => absurd (List.eq_of_mem_replicate hmem) (by decide)⟩
  induction h with
  | last hfree count =>
      rw [List.splitOn_eq_singleton hfree, List.splitOn_eq_singleton (hlonger count hfree)]
      exact .cons ⟨count, rfl⟩ .nil
  | line hfree count _ ih =>
      rw [List.splitOn_append_cons_self_of_not_mem hfree,
        List.splitOn_append_cons_self_of_not_mem (hlonger count hfree)]
      exact .cons ⟨count, rfl⟩ ih

end Source

theorem Scanner.ofLine_append_returns (line : List Char) (count : Nat) :
    ofLine (String.ofList (line ++ List.replicate count '\r')) = ofLine (String.ofList line) := by
  have hends : ∀ c ∈ List.replicate count '\r', isLineEnd c = true := by
    intro c hc
    rw [List.eq_of_mem_replicate hc]
    rfl
  rw [ofLine, ofLine, String.toList_ofList, String.toList_ofList, List.reverse_append,
    List.reverse_replicate, List.dropWhile_append_of_pos hends]

namespace Vocabulary

variable {vocabulary : Vocabulary}

/-- Lines that look the same to a scanner are assembled alike. -/
theorem assembleLines_of_ofLine {lines others : List String}
    (h : List.Forall₂ (fun line other => Scanner.ofLine line = Scanner.ofLine other) lines others) :
    ∀ (number : Nat) (workspace : Workspace) (tally : Tally),
      vocabulary.assembleLines number lines workspace tally
        = vocabulary.assembleLines number others workspace tally := by
  induction h with
  | nil => exact fun number workspace tally => rfl
  | cons hline _ ih =>
      intro number workspace tally
      rw [assembleLines_cons, assembleLines_cons, readLine, readLine, hline]
      exact ih (number + 1) _ _

/-- A text is assembled as its pieces between line feeds are. -/
theorem assembleLines_ofText (text : String) (number : Nat) (workspace : Workspace)
    (tally : Tally) :
    vocabulary.assembleLines number (Source.ofText text).lines workspace tally
      = vocabulary.assembleLines number ((text.toList.splitOn '\n').map String.ofList)
          workspace tally := by
  obtain ⟨pieces, last, hpieces⟩ : ∃ pieces last, text.toList.splitOn '\n' = pieces ++ [last] :=
    ⟨_, _, (List.dropLast_concat_getLast (List.splitOn_ne_nil '\n' text.toList)).symm⟩
  have hlines : Source.textLines text.toList
      = pieces.map Source.cutReturn ++ if last = [] then [] else [last] := by
    rw [Source.textLines, hpieces, List.dropLast_concat, List.getLast?_concat]
    cases last <;> rfl
  -- Reading has cut the pieces, and left the last one out if it is empty.
  have hread : (pieces.map Source.cutReturn).map String.ofList
      ++ [String.ofList (Source.cutReturn last)]
        = (pieces ++ [last]).map fun piece => String.ofList (Source.cutReturn piece) := by
    simp
  rw [Source.lines_ofText, hlines, List.map_append, assembleLines_append, ← assembleLines_seam,
    ← assembleLines_append, hread, hpieces]
  apply assembleLines_of_ofLine
  rw [List.forall₂_map_left_iff, List.forall₂_map_right_iff, List.forall₂_same]
  exact fun piece _ => Scanner.ofLine_cutReturn piece

theorem assembleLines_of_returnsAdded {text other : String}
    (h : Source.ReturnsAdded text.toList other.toList) (number : Nat) (workspace : Workspace)
    (tally : Tally) :
    vocabulary.assembleLines number (Source.ofText other).lines workspace tally
      = vocabulary.assembleLines number (Source.ofText text).lines workspace tally := by
  rw [assembleLines_ofText, assembleLines_ofText]
  refine (assembleLines_of_ofLine ?_ number workspace tally).symm
  rw [List.forall₂_map_left_iff, List.forall₂_map_right_iff]
  refine h.forall₂_splitOn.imp ?_
  rintro piece longer ⟨count, rfl⟩
  exact (Scanner.ofLine_append_returns piece count).symm

/-- Whatever the vocabulary, a text is assembled as it is with carriage returns added in front of
its line feeds and at its end: the workspace is left with the same program, console and log, and the
tally is the same. That holds in particular when one is put in front of each line feed, also of
those that have one already. -/
theorem assemble_of_returnsAdded (vocabulary : Vocabulary) (text : String) (workspace : Workspace) :
    (∀ other : String, Source.ReturnsAdded text.toList other.toList →
        vocabulary.assemble (.ofText other) workspace
          = vocabulary.assemble (.ofText text) workspace)
      ∧ vocabulary.assemble (.ofText (String.ofList (Source.withReturns text.toList))) workspace
        = vocabulary.assemble (.ofText text) workspace := by
  have hadded : ∀ other : String, Source.ReturnsAdded text.toList other.toList →
      vocabulary.assemble (.ofText other) workspace
        = vocabulary.assemble (.ofText text) workspace := by
    intro other h
    rw [assemble_ofText, assemble_ofText, assembleLines_of_returnsAdded h]
  refine ⟨hadded, hadded _ ?_⟩
  rw [String.toList_ofList]
  exact Source.returnsAdded_withReturns text.toList

/-- The first line ends in a carriage return already, the second is rejected, and the last is not
ended. -/
theorem assemble_of_returnsAdded_unevenly :
    let text := "a out 1\r\nb out x\n\nc out 2"
    let other := "a out 1\r\nb out x\r\r\r\n\r\nc out 2\r\r"
    Source.ReturnsAdded text.toList other.toList
      ∧ standard.assemble (.ofText other) {} = standard.assemble (.ofText text) {}
      ∧ (standard.assemble (.ofText text) {}).2 = .ok { instructions := 2, rejected := 1 } := by
  intro text other
  have htext : text.toList
      = "a out 1\r".toList ++ '\n' ::
        ("b out x".toList ++ '\n' :: ([] ++ '\n' :: "c out 2".toList)) := by
    decide +kernel
  have hother : other.toList
      = "a out 1\r".toList ++ List.replicate 0 '\r' ++ '\n' ::
        ("b out x".toList ++ List.replicate 3 '\r' ++ '\n' ::
          ([] ++ List.replicate 1 '\r' ++ '\n' ::
            ("c out 2".toList ++ List.replicate 2 '\r'))) := by
    decide +kernel
  have hadded : Source.ReturnsAdded text.toList other.toList := by
    rw [htext, hother]
    exact .line (by decide) 0 (.line (by decide) 3 (.line (by decide) 1 (.last (by decide) 2)))
  exact ⟨hadded, (assemble_of_returnsAdded standard text {}).1 other hadded, by decide +kernel⟩

end Vocabulary

end RegisterMachine
