import RegisterMachine.Source

/-!
# The lines of a source that is text

A source is read as bytes: it is cut at line feeds, a carriage return is taken
off, and only then is each line decoded. When the bytes are the encoding of a
text, all of that can be done on the text instead. The reason is that a byte
below 128 occurs in the encoding of one character only, the one it stands for,
so neither a line feed nor a carriage return turns up inside another character.

`lines_ofText` and `fault?_ofText` say so for the whole source. The lines of a
text are then found one at a time by `textLines_append` and
`textLines_of_not_mem`, and bytes need not be mentioned again.
-/

namespace RegisterMachine.Source

/-- The bytes that a run of characters is written as. -/
def encode (text : List Char) : List UInt8 :=
  text.flatMap String.utf8EncodeChar

theorem bytes_ofText (text : String) : (ofText text).bytes = encode text.toList := by
  show text.toByteArray.data.toList = _
  rw [← String.utf8Encode_toList, List.utf8Encode, List.toList_data_toByteArray, encode]

theorem encode_append (front rest : List Char) :
    encode (front ++ rest) = encode front ++ encode rest :=
  List.flatMap_append

theorem encode_eq_nil_iff {text : List Char} : encode text = [] ↔ text = [] := by
  rw [encode, List.flatMap_eq_nil_iff]
  constructor
  · intro h
    cases text with
    | nil => rfl
    | cons c text => exact absurd (h c List.mem_cons_self) String.utf8EncodeChar_ne_nil
  · rintro rfl c hc
    cases hc

theorem text?_encode (line : List Char) : text? (encode line) = some (String.ofList line) := by
  have h : (⟨(encode line).toArray⟩ : ByteArray) = (String.ofList line).toByteArray := by
    rw [String.toByteArray_ofList, List.utf8Encode]
    exact ByteArray.ext (by rw [List.data_toByteArray]; rfl)
  rw [text?, h, String.fromUTF8?, dif_pos (String.ofList line).isValidUTF8]
  rfl

/-- A byte below 128 in the encoding of a character is the whole of it. -/
theorem eq_of_mem_utf8EncodeChar {c : Char} {b : UInt8} (h : b ∈ String.utf8EncodeChar c)
    (hb : b.toNat < 128) : String.utf8EncodeChar c = [b] ∧ c.toNat = b.toNat := by
  -- The bytes of a longer encoding all carry a mark of at least 128.
  have high : ∀ n m : Nat, 128 ≤ m → n < 256 - m → ¬ (UInt8.ofNat (n + m)).toNat < 128 := by
    intro n m hm hn
    rw [UInt8.toNat_ofNat']
    omega
  show _ ∧ c.val.toNat = b.toNat
  simp only [String.utf8EncodeChar] at h ⊢
  split at h
  · next hc =>
      rw [List.mem_singleton] at h
      subst h
      rw [if_pos hc, UInt8.toNat_ofNat']
      exact ⟨rfl, by omega⟩
  · exfalso
    split at h
    · simp only [List.mem_cons, List.not_mem_nil, or_false] at h
      rcases h with rfl | rfl <;> exact high _ _ (by omega) (by omega) hb
    · split at h <;> simp only [List.mem_cons, List.not_mem_nil, or_false] at h
      · rcases h with rfl | rfl | rfl <;> exact high _ _ (by omega) (by omega) hb
      · rcases h with rfl | rfl | rfl | rfl <;> exact high _ _ (by omega) (by omega) hb

theorem eq_of_lineFeed_mem {c : Char} (h : lineFeed ∈ String.utf8EncodeChar c) : c = '\n' :=
  Char.toNat_inj.1 (eq_of_mem_utf8EncodeChar h (by decide)).2

theorem eq_of_carriageReturn_mem {c : Char} (h : carriageReturn ∈ String.utf8EncodeChar c) :
    c = '\r' :=
  Char.toNat_inj.1 (eq_of_mem_utf8EncodeChar h (by decide)).2

/-! ## Cutting a text instead of its bytes -/

theorem splitOn_append_of_not_mem {α : Type} [DecidableEq α] {a : α} {front : List α}
    (h : a ∉ front) (rest : List α) :
    (front ++ rest).splitOn a = (rest.splitOn a).modifyHead (front ++ ·) := by
  induction front with
  | nil =>
      rw [List.nil_append]
      cases rest.splitOn a <;> rfl
  | cons x front ih =>
      rw [List.mem_cons, not_or] at h
      rw [List.cons_append, List.splitOn_cons_eq_if_modifyHead, ih h.2,
        if_neg (by rw [beq_iff_eq]; exact Ne.symm h.1)]
      cases rest.splitOn a <;> rfl

theorem splitOn_encode (text : List Char) :
    (encode text).splitOn lineFeed = (text.splitOn '\n').map encode := by
  induction text with
  | nil => rfl
  | cons c text ih =>
      show (String.utf8EncodeChar c ++ encode text).splitOn lineFeed = _
      rw [List.splitOn_cons_eq_if_modifyHead]
      by_cases hc : c = '\n'
      · subst hc
        show (lineFeed :: encode text).splitOn lineFeed = _
        rw [List.splitOn_cons_eq_if_modifyHead, ih]
        rfl
      · rw [if_neg (by simpa using hc),
          splitOn_append_of_not_mem (fun h => hc (eq_of_lineFeed_mem h)), ih]
        cases text.splitOn '\n' <;> rfl

/-- A line without the carriage return at its end. -/
def cutReturn (line : List Char) : List Char :=
  if line.getLast? = some '\r' then line.dropLast else line

theorem cutReturn_of_not_mem {line : List Char} (h : '\r' ∉ line) : cutReturn line = line :=
  if_neg fun hlast => h (List.mem_of_getLast? hlast)

theorem dropReturn_encode (line : List Char) :
    dropReturn (encode line) = encode (cutReturn line) := by
  rcases List.eq_nil_or_concat line with rfl | ⟨front, c, hline⟩
  · rfl
  · rw [List.concat_eq_append] at hline
    subst hline
    have hsplit : encode (front ++ [c]) = encode front ++ String.utf8EncodeChar c := by
      rw [encode_append, encode, encode, List.flatMap_singleton]
    rw [dropReturn, cutReturn, List.getLast?_concat, List.dropLast_concat]
    by_cases hc : c = '\r'
    · subst hc
      have hend : encode (front ++ ['\r']) = encode front ++ [carriageReturn] := hsplit
      rw [hend, List.getLast?_concat, if_pos rfl, if_pos rfl, List.dropLast_concat]
    · rw [if_neg (show ¬ some c = some '\r' by simpa using hc), if_neg]
      rw [hsplit, List.getLast?_append,
        List.getLast?_eq_some_getLast String.utf8EncodeChar_ne_nil, Option.some_or]
      intro h
      rw [Option.some_inj] at h
      exact hc (eq_of_carriageReturn_mem (h ▸ List.getLast_mem _))

/-- The lines of a text: what stands before each line feed, and what stands after the last. -/
def textLines (text : List Char) : List (List Char) :=
  (text.splitOn '\n').dropLast.map cutReturn
    ++ (text.splitOn '\n').getLast?.toList.filter (!·.isEmpty)

theorem rawLines_ofText (text : String) :
    (ofText text).rawLines = (textLines text.toList).map encode := by
  have hempty : ∀ line, (!(encode line).isEmpty) = !line.isEmpty := by
    intro line
    rw [Bool.eq_iff_iff]
    simp [encode_eq_nil_iff]
  rw [rawLines, finished, unfinished, bytes_ofText, splitOn_encode, textLines, List.map_append,
    List.map_map, ← List.map_dropLast, List.map_map, List.getLast?_map]
  congr 1
  · exact List.map_congr_left fun line _ => dropReturn_encode line
  · cases (text.toList.splitOn '\n').getLast? with
    | none => rfl
    | some line =>
        show List.filter (!·.isEmpty) [encode line] = (List.filter (!·.isEmpty) [line]).map encode
        rw [List.filter_cons, List.filter_cons, hempty]
        cases !line.isEmpty <;> rfl

/-- Reading a text finds the lines of the text. -/
theorem lines_ofText (text : String) :
    (ofText text).lines = (textLines text.toList).map String.ofList := by
  rw [lines, rawLines_ofText, List.map_map]
  induction textLines text.toList with
  | nil => rfl
  | cons line rest ih =>
      rw [List.map_cons, Function.comp_apply, text?_encode, List.takeWhile_cons_of_pos rfl,
        List.filterMap_cons, ih]
      rfl

/-- Nothing goes wrong in reading a text. -/
theorem fault?_ofText (text : String) : (ofText text).fault? = none := by
  rw [fault?, rawLines_ofText, if_pos]
  · rfl
  · rw [List.all_eq_true]
    intro bytes hbytes
    obtain ⟨line, -, rfl⟩ := List.mem_map.1 hbytes
    rw [text?_encode]
    rfl

/-! ## The lines of a text, one at a time -/

theorem textLines_of_not_mem {line : List Char} (h : '\n' ∉ line) :
    textLines line = if line = [] then [] else [line] := by
  rw [textLines, List.splitOn_eq_singleton h]
  cases line <;> rfl

theorem textLines_append {line : List Char} (h : '\n' ∉ line) (rest : List Char) :
    textLines (line ++ '\n' :: rest) = cutReturn line :: textLines rest := by
  rw [textLines, List.splitOn_append_cons_self_of_not_mem h, textLines]
  cases hrest : rest.splitOn '\n' with
  | nil => exact absurd hrest (List.splitOn_ne_nil _ _)
  | cons first others => rfl

end RegisterMachine.Source
