import RegisterMachine.Proofs.SourceText
import Mathlib.Data.List.Induction

/-!
# A stream of bytes is text when its lines are

Reading decodes a source line by line and never looks at the whole. Nothing is
lost by that: a line feed is a whole character wherever it occurs, even in the
middle of bytes that would otherwise begin a longer one, so cutting at line
feeds cuts between characters. `isText_iff_splitOn` says so for the pieces, and
`isText_iff_rawLines` for the lines, from which carriage returns have been
taken off.

The second half is about where reading stops. Bytes that end with a line feed
are `Complete`, and what follows them has no part in their lines
(`rawLines_append`). So bytes can be cut in front of their first broken line
(`exists_breaksAt`) and in front of their unfinished line
(`exists_complete_append`), and reading the front is reading what came before.
-/

namespace RegisterMachine.Source

/-- The bytes encode a text. -/
def IsText (bytes : List UInt8) : Prop :=
  ByteArray.IsValidUTF8 ⟨bytes.toArray⟩

instance (bytes : List UInt8) : Decidable (IsText bytes) :=
  inferInstanceAs (Decidable (ByteArray.IsValidUTF8 _))

theorem isText_iff_encode {bytes : List UInt8} : IsText bytes ↔ ∃ text, bytes = encode text := by
  have hencode : ∀ text, List.utf8Encode text = ⟨(encode text).toArray⟩ := fun text =>
    ByteArray.ext (List.data_toByteArray)
  constructor
  · rintro ⟨text, h⟩
    rw [hencode] at h
    injection h with h
    exact ⟨text, List.toArray_inj h⟩
  · rintro ⟨text, rfl⟩
    exact ⟨text, (hencode text).symm⟩

theorem isSome_text? (line : List UInt8) : (text? line).isSome = decide (IsText line) := by
  rw [text?, String.fromUTF8?]
  split
  · next h => exact (decide_eq_true h).symm
  · next h => exact (decide_eq_false h).symm

theorem isText_nil : IsText [] :=
  isText_iff_encode.2 ⟨[], rfl⟩

theorem IsText.append {front rest : List UInt8} (hfront : IsText front) (hrest : IsText rest) :
    IsText (front ++ rest) := by
  obtain ⟨first, rfl⟩ := isText_iff_encode.1 hfront
  obtain ⟨second, rfl⟩ := isText_iff_encode.1 hrest
  exact isText_iff_encode.2 ⟨first ++ second, (encode_append first second).symm⟩

theorem isText_lineFeed : IsText [lineFeed] :=
  isText_iff_encode.2 ⟨['\n'], rfl⟩

theorem isText_carriageReturn : IsText [carriageReturn] :=
  isText_iff_encode.2 ⟨['\r'], rfl⟩

/-! ## Text by pieces and by lines -/

theorem isText_intercalate {pieces : List (List UInt8)} :
    (∀ piece ∈ pieces, IsText piece) → IsText ([lineFeed].intercalate pieces) := by
  induction pieces with
  | nil => exact fun _ => isText_nil
  | cons piece pieces ih =>
      intro h
      rw [List.forall_mem_cons] at h
      by_cases hlast : pieces = []
      · rw [hlast, List.intercalate_singleton]
        exact h.1
      · rw [List.intercalate_cons_of_ne_nil hlast]
        exact (h.1.append isText_lineFeed).append (ih h.2)

theorem isText_iff_splitOn {bytes : List UInt8} :
    IsText bytes ↔ ∀ piece ∈ bytes.splitOn lineFeed, IsText piece := by
  constructor
  · intro h piece hpiece
    obtain ⟨text, rfl⟩ := isText_iff_encode.1 h
    rw [splitOn_encode] at hpiece
    obtain ⟨line, -, rfl⟩ := List.mem_map.1 hpiece
    exact isText_iff_encode.2 ⟨line, rfl⟩
  · intro h
    rw [← @List.intercalate_splitOn _ bytes _ _ lineFeed]
    exact isText_intercalate h

theorem isText_append_lineFeed_iff {front rest : List UInt8} :
    IsText (front ++ lineFeed :: rest) ↔ IsText front ∧ IsText rest := by
  rw [isText_iff_splitOn, List.splitOn_append_cons_self, List.forall_mem_append,
    ← isText_iff_splitOn, ← isText_iff_splitOn]

theorem isText_dropReturn_iff {line : List UInt8} : IsText (dropReturn line) ↔ IsText line := by
  constructor
  · intro h
    rw [dropReturn] at h
    split at h
    · next hlast =>
        obtain ⟨front, rfl⟩ := List.getLast?_eq_some_iff.1 hlast
        rw [List.dropLast_concat] at h
        exact h.append isText_carriageReturn
    · exact h
  · intro h
    obtain ⟨text, rfl⟩ := isText_iff_encode.1 h
    exact isText_iff_encode.2 ⟨cutReturn text, dropReturn_encode text⟩

/-! ## Complete bytes, and what comes after them -/

/-- Nothing is left unfinished at the end of the bytes. -/
def Complete (bytes : List UInt8) : Prop :=
  bytes = [] ∨ ∃ front, bytes = front ++ [lineFeed]

theorem rawLines_append {front : List UInt8} (h : Complete front) (rest : List UInt8)
    (failure : Option String) :
    rawLines { bytes := front ++ rest, failure }
      = rawLines { bytes := front } ++ rawLines { bytes := rest, failure } := by
  obtain rfl | ⟨start, rfl⟩ := h
  · rfl
  · have hsplit : ∀ bytes : List UInt8, (start ++ [lineFeed] ++ bytes).splitOn lineFeed
        = start.splitOn lineFeed ++ bytes.splitOn lineFeed := by
      intro bytes
      rw [List.append_assoc]
      exact List.splitOn_append_cons_self start bytes
    have hfront := hsplit []
    rw [List.append_nil, List.splitOn_nil] at hfront
    have hrest := List.splitOn_ne_nil lineFeed rest
    obtain ⟨last, hlast⟩ := Option.ne_none_iff_exists'.1 (mt List.getLast?_eq_none_iff.1 hrest)
    simp only [rawLines, finished, unfinished, hsplit, hfront, List.dropLast_concat,
      List.dropLast_append_of_ne_nil hrest, List.getLast?_append, hlast, List.map_append]
    rw [List.append_assoc]
    show _ = (_ ++ ([] : List (List UInt8))) ++ _
    rw [List.append_nil]
    rfl

theorem forall_unfinished_isText_iff {bytes : List UInt8} :
    (∀ line ∈ unfinished { bytes }, IsText line)
      ↔ ∀ line ∈ (bytes.splitOn lineFeed).getLast?, IsText line := by
  rw [unfinished]
  cases (bytes.splitOn lineFeed).getLast? with
  | none => simp
  | some last => cases last <;> simp [isText_nil]

theorem isText_iff_rawLines {bytes : List UInt8} :
    IsText bytes ↔ ∀ line ∈ rawLines { bytes }, IsText line := by
  have hne := List.splitOn_ne_nil lineFeed bytes
  rw [rawLines, List.forall_mem_append, forall_unfinished_isText_iff, finished, List.forall_mem_map,
    isText_iff_splitOn]
  conv => lhs; rw [← List.dropLast_concat_getLast hne]
  rw [List.forall_mem_append, List.getLast?_eq_some_getLast hne]
  simp [isText_dropReturn_iff]

/-- An unfinished line is lost when reading it fails. -/
theorem rawLines_of_failure {front tail : List UInt8} (hfront : Complete front)
    (hfree : lineFeed ∉ tail) (reason : String) :
    rawLines { bytes := front ++ tail, failure := some reason } = rawLines { bytes := front } := by
  have htail : rawLines { bytes := tail, failure := some reason } = [] := by
    rw [rawLines, finished, List.splitOn_eq_singleton hfree]
    rfl
  rw [rawLines_append hfront, htail, List.append_nil]

theorem exists_complete_append (bytes : List UInt8) :
    ∃ front tail, bytes = front ++ tail ∧ Complete front ∧ lineFeed ∉ tail := by
  induction bytes using List.reverseRecOn with
  | nil => exact ⟨[], [], rfl, .inl rfl, List.not_mem_nil⟩
  | append_singleton bytes last ih =>
      by_cases hlast : last = lineFeed
      · subst hlast
        exact ⟨bytes ++ [lineFeed], [], (List.append_nil _).symm, .inr ⟨bytes, rfl⟩,
          List.not_mem_nil⟩
      · obtain ⟨front, tail, rfl, hfront, htail⟩ := ih
        refine ⟨front, tail ++ [last], List.append_assoc _ _ _, hfront, ?_⟩
        rw [List.mem_append, List.mem_singleton, not_or]
        exact ⟨htail, Ne.symm hlast⟩

/-! ## The first broken line -/

/-- Bytes cut at their first line that is not text: the lines before it, the line itself, and what
is left from its end on. -/
structure BreaksAt (bytes front line rest : List UInt8) : Prop where
  parts : bytes = front ++ (line ++ rest)
  complete : Complete front
  text : IsText front
  broken : ¬ IsText line
  free : lineFeed ∉ line
  ends : rest = [] ∨ ∃ others, rest = lineFeed :: others

/-- The first line of bytes that are not empty, without its end. -/
theorem exists_firstLine (bytes : List UInt8) :
    ∃ line rest, bytes = line ++ rest ∧ lineFeed ∉ line
      ∧ (rest = [] ∨ ∃ others, rest = lineFeed :: others) := by
  induction bytes with
  | nil => exact ⟨[], [], rfl, List.not_mem_nil, .inl rfl⟩
  | cons first bytes ih =>
      by_cases hfirst : first = lineFeed
      · exact ⟨[], first :: bytes, rfl, List.not_mem_nil, .inr ⟨bytes, by rw [hfirst]⟩⟩
      · obtain ⟨line, rest, rfl, hfree, hends⟩ := ih
        refine ⟨first :: line, rest, rfl, ?_, hends⟩
        rw [List.mem_cons, not_or]
        exact ⟨Ne.symm hfirst, hfree⟩

theorem BreaksAt.cons {first bytes front line rest : List UInt8} (hfirst : IsText first)
    (h : BreaksAt bytes front line rest) :
    BreaksAt (first ++ lineFeed :: bytes) (first ++ lineFeed :: front) line rest where
  parts := by rw [h.parts, List.append_assoc]; rfl
  complete := by
    obtain rfl | ⟨start, rfl⟩ := h.complete
    · exact .inr ⟨first, rfl⟩
    · exact .inr ⟨first ++ lineFeed :: start, by rw [List.append_assoc]; rfl⟩
  text := isText_append_lineFeed_iff.2 ⟨hfirst, h.text⟩
  broken := h.broken
  free := h.free
  ends := h.ends

theorem exists_breaksAt (bytes : List UInt8) (h : ¬ IsText bytes) :
    ∃ front line rest, BreaksAt bytes front line rest := by
  induction hlength : bytes.length using Nat.strongRecOn generalizing bytes with
  | ind length ih =>
      obtain ⟨first, rest, rfl, hfree, hends⟩ := exists_firstLine bytes
      by_cases hfirst : IsText first
      · obtain rfl | ⟨others, rfl⟩ := hends
        · rw [List.append_nil] at h
          exact absurd hfirst h
        · -- The first line is text, so that the others are not.
          have hothers : ¬ IsText others := fun hothers =>
            h (isText_append_lineFeed_iff.2 ⟨hfirst, hothers⟩)
          rw [List.length_append, List.length_cons] at hlength
          obtain ⟨front, line, rest, hbreaks⟩ := ih others.length (by omega) others hothers rfl
          exact ⟨_, line, rest, hbreaks.cons hfirst⟩
      · exact ⟨[], first, rest, rfl, .inl rfl, isText_nil, hfirst, hfree, hends⟩

/-! ## What reading makes of it -/

theorem fault?_eq (source : Source) :
    source.fault?
      = if ∀ line ∈ source.rawLines, IsText line then source.failure.map .io
        else some .invalidText := by
  simp only [fault?, isSome_text?, List.all_eq_true, decide_eq_true_eq]

theorem fault?_bytes (bytes : List UInt8) :
    fault? { bytes } = if IsText bytes then none else some .invalidText := by
  rw [fault?_eq]
  simp only [← isText_iff_rawLines]
  rfl

/-- Lines that come after a broken one are not read. -/
theorem lines_eq_of_rawLines {source front : Source} {rest : List (List UInt8)}
    (hraw : source.rawLines = front.rawLines ++ rest)
    (hfront : ∀ line ∈ front.rawLines, IsText line) (hrest : ∀ line ∈ rest.head?, ¬ IsText line) :
    source.lines = front.lines := by
  have hread : ∀ line ∈ front.rawLines.map text?, line.isSome = true := by
    intro read hmem
    obtain ⟨line, hline, rfl⟩ := List.mem_map.1 hmem
    rw [isSome_text?, decide_eq_true_iff]
    exact hfront line hline
  have hstop : (rest.map text?).takeWhile Option.isSome = [] := by
    cases rest with
    | nil => rfl
    | cons line rest =>
        rw [List.map_cons, List.takeWhile_cons_of_neg]
        rw [isSome_text?, decide_eq_true_iff]
        exact hrest line rfl
  have hall : ∀ others, (front.rawLines.map text? ++ others).takeWhile Option.isSome
      = front.rawLines.map text? ++ others.takeWhile Option.isSome :=
    fun others => List.takeWhile_append_of_pos hread
  have hself := hall []
  rw [List.append_nil, List.takeWhile_nil, List.append_nil] at hself
  rw [lines, lines, hraw, List.map_append, hall, hstop, List.append_nil, hself]

theorem rawLines_of_free {line : List UInt8} (hfree : lineFeed ∉ line) (hne : line ≠ []) :
    rawLines { bytes := line } = [line] := by
  rw [rawLines, finished, unfinished, List.splitOn_eq_singleton hfree]
  cases line with
  | nil => exact absurd rfl hne
  | cons first line => rfl

theorem rawLines_lineFeed {line : List UInt8} (hfree : lineFeed ∉ line) :
    rawLines { bytes := line ++ [lineFeed] } = [dropReturn line] := by
  rw [rawLines, finished, unfinished, List.splitOn_append_cons_self,
    List.splitOn_eq_singleton hfree]
  rfl

theorem BreaksAt.head?_rawLines {bytes front line rest : List UInt8}
    (h : BreaksAt bytes front line rest) :
    ∀ first ∈ (rawLines { bytes := line ++ rest }).head?, ¬ IsText first := by
  obtain rfl | ⟨others, rfl⟩ := h.ends
  · have hne : line ≠ [] := by
      rintro rfl
      exact h.broken isText_nil
    rw [List.append_nil, rawLines_of_free h.free hne]
    rintro first ⟨⟩
    exact h.broken
  · rw [show line ++ lineFeed :: others = line ++ [lineFeed] ++ others by simp,
      rawLines_append (.inr ⟨line, rfl⟩), rawLines_lineFeed h.free]
    rintro first ⟨⟩
    rw [isText_dropReturn_iff]
    exact h.broken

theorem BreaksAt.lines_eq {bytes front line rest : List UInt8}
    (h : BreaksAt bytes front line rest) :
    lines { bytes } = lines { bytes := front } := by
  refine lines_eq_of_rawLines ?_ (isText_iff_rawLines.1 h.text) h.head?_rawLines
  rw [h.parts]
  exact rawLines_append h.complete _ _

theorem Complete.isText_append_iff {front : List UInt8} (h : Complete front) {rest : List UInt8} :
    IsText (front ++ rest) ↔ IsText front ∧ IsText rest := by
  obtain rfl | ⟨start, rfl⟩ := h
  · simp [isText_nil]
  · have hfront := @isText_append_lineFeed_iff start []
    rw [List.append_assoc, hfront]
    simpa [isText_nil] using isText_append_lineFeed_iff

theorem BreaksAt.not_isText {bytes front line rest : List UInt8}
    (h : BreaksAt bytes front line rest) : ¬ IsText bytes := by
  rw [h.parts, h.complete.isText_append_iff]
  rintro ⟨-, htext⟩
  obtain rfl | ⟨others, rfl⟩ := h.ends
  · rw [List.append_nil] at htext
    exact h.broken htext
  · exact h.broken (isText_append_lineFeed_iff.1 htext).1

end RegisterMachine.Source
