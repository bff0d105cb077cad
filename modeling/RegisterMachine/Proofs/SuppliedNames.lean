import RegisterMachine.Proofs.Mentions

/-!
# Which named positions are supplied

A position gets its name in a template by a letter in front of the key, however
the key is spelled: a plus sign and leading zeros are read over, and they stay.
The values are passed under the names that positions have when they are written
without these. So the two meet just when the key is spelled as the position is
written. Then the field is passed, once, and to the place where it is asked for;
otherwise nothing is passed under the name that the template has got.

Nothing is assumed of the template but that the key is ended by a brace or a
colon. A key that runs to the end of the text is named as well, and never found.
-/

namespace RegisterMachine.Derive

/-! ## Spellings of a position -/

theorem toNat_of_unsigned?_ofNat {i : Nat} {index : UInt64}
    (h : Numeral.unsigned? (Numeral.ofNat i).toList = some index) : index.toNat = i := by
  rw [Numeral.unsigned?, Numeral.cardinal?_ofNat] at h
  obtain ⟨hlt, hword⟩ : i < UInt64.size ∧ UInt64.ofNat i = index := by simpa using h
  rw [← hword]
  exact UInt64.toNat_ofNat_of_lt hlt

/-- Only the position that a key stands for can have a name that ends in the key, and it has if the
key is how it is written. -/
theorem positionName_eq_iff {key : List Char} {index : UInt64}
    (hindex : Numeral.unsigned? key = some index) (i : Nat) :
    positionName i = String.ofList ('f' :: key)
      ↔ String.ofList key = Numeral.ofNat index.toNat ∧ i = index.toNat := by
  rw [← String.toList_inj, toList_positionName, String.toList_ofList, List.cons_inj_right]
  constructor
  · rintro rfl
    rw [String.ofList_toList, toNat_of_unsigned?_ofNat hindex]
    exact ⟨rfl, rfl⟩
  · rintro ⟨hkey, rfl⟩
    rw [← hkey, String.toList_ofList]

/-! ## What follows a key -/

/-- What follows a key is nothing at all, or starts with what ends the key. -/
theorem pieces_after_opened {text key : List Char} {back : List Piece} :
    ∀ {front : List Piece}, pieces text = front ++ .opened key :: back →
      back = [] ∨ ∃ stop rest, isKeyChar stop = false ∧ back = .plain stop :: rest := by
  fun_induction pieces text with
  | case1 =>
      intro front h
      simp at h
  | case2 =>
      intro front h
      cases front with
      | nil => exact .inl (List.cons.inj h).2.symm
      | cons piece front => simp at h
  | case3 rest ih =>
      intro front h
      cases front with
      | nil => cases h
      | cons piece front => exact ih (List.cons.inj h).2
  | case4 d rest hd ih =>
      intro front h
      cases front with
      | cons piece front => exact ih (List.cons.inj h).2
      | nil =>
          -- the placeholder in question: its key was cut off at the first character that ends a key
          have hback := (List.cons.inj h).2
          cases hdrop : (d :: rest).dropWhile isKeyChar with
          | nil =>
              rw [hdrop, pieces] at hback
              exact .inl hback.symm
          | cons stop after =>
              have hstop : isKeyChar stop = false := by
                have hhead := List.head?_dropWhile_not isKeyChar (d :: rest)
                rwa [hdrop] at hhead
              rw [hdrop, pieces_cons (ne_openBrace_of_ends hstop)] at hback
              exact .inr ⟨stop, pieces after, hstop, hback.symm⟩
  | case5 c rest hc ih =>
      intro front h
      cases front with
      | nil => cases h
      | cons piece front => exact ih (List.cons.inj h).2

/-- A placeholder is given the name of a position: it has a key that is ended, and the key stands
for one of so many positions. -/
structure Renames (arity : Nat) (message : String) (key : List Char) (index : UInt64) : Prop where
  opened : ∃ front back, back ≠ [] ∧ pieces message.toList = front ++ .opened key :: back
  read : Numeral.unsigned? key = some index
  lt : index.toNat < arity

/-- The text of pieces once the positions have names. -/
def namedText (arity : Nat) (parts : List Piece) : List Char :=
  (parts.map (Piece.namePosition arity)).flatMap Piece.text

section Renamed

variable {arity : Nat} {message : String} {key : List Char} {index : UInt64}

/-- The key gets its letter in its place, and something still ends it. -/
theorem Renames.template (h : Renames arity message key index) :
    ∃ front stop back, pieces message.toList = front ++ .opened key :: .plain stop :: back
      ∧ isKeyChar stop = false
      ∧ (namePositions arity message).toList
        = namedText arity front ++ openBrace :: (('f' :: key) ++ stop :: namedText arity back) := by
  obtain ⟨front, back, hback, hpieces⟩ := h.opened
  obtain ⟨stop, rest, hstop, rfl⟩ := (pieces_after_opened hpieces).resolve_left hback
  have hkey : keyName arity key = 'f' :: key := by
    rw [keyName, isPosition, h.read]
    exact if_pos (decide_eq_true h.lt)
  refine ⟨front, stop, rest, hpieces, hstop, ?_⟩
  rw [namePositions, String.toList_ofList, hpieces, List.map_append, List.flatMap_append,
    List.map_cons, List.flatMap_cons, Piece.namePosition, hkey]
  rfl

/-! ## What is passed -/

theorem Renames.mentioned (h : Renames arity message key index) :
    mentions (namePositions arity message) (String.ofList ('f' :: key)) = true := by
  obtain ⟨front, stop, back, -, hstop, htemplate⟩ := h.template
  have hbegins : BeginsWithKey (String.ofList ('f' :: key))
      (('f' :: key) ++ stop :: namedText arity back) :=
    ⟨stop, hstop, namedText arity back,
      by rw [String.toList_ofList, List.append_assoc, List.singleton_append]⟩
  rw [← @String.ofList_toList (namePositions arity message), htemplate]
  exact mentions_append_right ((mentions_cons _ _ _).2 (.inl ⟨rfl, hbegins⟩)) _

theorem Renames.mem_mentionedPositions_iff (h : Renames arity message key index) (i : Nat) :
    i ∈ mentionedPositions (namePositions arity message) arity
        ∧ positionName i = String.ofList ('f' :: key)
      ↔ String.ofList key = Numeral.ofNat index.toNat ∧ i = index.toNat := by
  rw [positionName_eq_iff h.read]
  constructor
  · exact And.right
  · rintro ⟨hkey, rfl⟩
    have hname := (positionName_eq_iff h.read index.toNat).2 ⟨hkey, rfl⟩
    have hfound : mentions (namePositions arity message) (positionName index.toNat) = true :=
      hname ▸ h.mentioned
    exact ⟨List.mem_filter.2 ⟨List.mem_range.2 h.lt, hfound⟩, hkey, rfl⟩

theorem Renames.passed_eq (h : Renames arity message key index) {write : Write}
    (source : Nat → Value)
    (hvalues : write.values
      = some (passing source (mentionedPositions (namePositions arity message) arity))) :
    write.passed (String.ofList ('f' :: key))
      = if String.ofList key = Numeral.ofNat index.toNat then [source index.toNat] else [] := by
  split
  · next hkey =>
      obtain ⟨hmem, hname⟩ := (h.mem_mentionedPositions_iff index.toNat).2 ⟨hkey, rfl⟩
      have hnodup : (mentionedPositions (namePositions arity message) arity).Nodup :=
        List.nodup_range.filter _
      rw [← hname]
      exact passed_of_mem hvalues hnodup hmem
  · next hkey =>
      have hother : ∀ value ∈ passing source
          (mentionedPositions (namePositions arity message) arity),
          ¬ (value.name == String.ofList ('f' :: key)) = true := by
        intro value hvalue hname
        obtain ⟨i, hi, rfl⟩ := List.mem_map.1 hvalue
        exact hkey ((h.mem_mentionedPositions_iff i).1 ⟨hi, beq_iff_eq.1 hname⟩).1
      rw [Write.passed, hvalues, Option.getD_some, List.filter_eq_nil_iff.2 hother]
      rfl

/-- A placeholder that is given the name of a position is supplied with the field at that position,
and with nothing else, if its key is the position as it is written. It is not supplied at all if the
key is spelled in any other way. -/
theorem supplied_iff_written (h : Renames arity message key index) (variant : String) :
    let name := String.ofList ('f' :: key)
    let position := Numeral.ofNat index.toNat
    let template := namePositions arity message
    let write := Write.ofStruct (.tuple arity) message
    let arm := Arm.ofVariant variant (.tuple arity) message
    (∃ front stop back, pieces message.toList = front ++ .opened key :: .plain stop :: back
        ∧ isKeyChar stop = false
        ∧ template.toList
          = namedText arity front ++ openBrace :: (name.toList ++ stop :: namedText arity back))
      ∧ (write.message = template
        ∧ write.passed name = if String.ofList key = position then [.member position] else [])
      ∧ arm.write.message = template
        ∧ arm.write.passed name = (if String.ofList key = position then [.bound name] else [])
        ∧ ∃ bindings, arm.pattern = .tuple bindings ∧ bindings.length = arity
          ∧ ∀ i, bindings[i]? = some (some name)
            ↔ String.ofList key = position ∧ i = index.toNat := by
  intro name position template write arm
  have hname : String.ofList key = position → positionName index.toNat = name :=
    fun hkey => (positionName_eq_iff h.read _).2 ⟨hkey, rfl⟩
  refine ⟨?_, ⟨rfl, h.passed_eq (fun i => .member (Numeral.ofNat i)) rfl⟩, rfl, ?_,
    tupleBindings template arity, rfl, ?_, fun i => ?_⟩
  · obtain ⟨front, stop, back, hpieces, hstop, htemplate⟩ := h.template
    exact ⟨front, stop, back, hpieces, hstop, by rw [htemplate, String.toList_ofList]⟩
  · have hpassed : arm.write.passed name
        = if String.ofList key = position then [.bound (positionName index.toNat)] else [] :=
      h.passed_eq (fun i => .bound (positionName i)) rfl
    rw [hpassed]
    split
    · next hkey => rw [hname hkey]
    · rfl
  · rw [tupleBindings, List.length_map, List.length_range]
  · rw [getElem?_tupleBindings_iff]
    exact h.mem_mentionedPositions_iff i

/-- One position, spelled in both ways in the same template. -/
theorem supplied_iff_written_bothSpellings :
    let message := "\x7b\x7b\x7b+01:>4\x7d \x7b1\x7d"
    let write := Write.ofStruct (.tuple 2) message
    Renames 2 message ['+', '0', '1'] 1 ∧ Renames 2 message ['1'] 1
      ∧ write.message = "\x7b\x7b\x7bf+01:>4\x7d \x7bf1\x7d"
      ∧ write.passed "f+01" = [] ∧ write.passed "f1" = [.member "1"] := by
  intro message write
  have hsigned : Renames 2 message ['+', '0', '1'] 1 :=
    ⟨⟨[.doubled], [.plain ':', .plain '>', .plain '4', .plain closeBrace, .plain ' ',
      .opened ['1'], .plain closeBrace], by decide, by decide +kernel⟩, by decide, by decide⟩
  have hplain : Renames 2 message ['1'] 1 :=
    ⟨⟨[.doubled, .opened ['+', '0', '1'], .plain ':', .plain '>', .plain '4', .plain closeBrace,
      .plain ' '], [.plain closeBrace], by decide, by decide +kernel⟩, by decide, by decide⟩
  obtain ⟨-, ⟨-, hmissing⟩, -⟩ := supplied_iff_written hsigned "V"
  obtain ⟨-, ⟨-, hsupplied⟩, -⟩ := supplied_iff_written hplain "V"
  exact ⟨hsigned, hplain, by decide +kernel, hmissing, hsupplied⟩

/-- A leading zero is kept in the name, and no field is passed under it. -/
theorem not_supplied_leadingZero :
    namePositions 1 "\x7b00\x7d" = "\x7bf00\x7d"
      ∧ Write.ofStruct (.tuple 1) "\x7b00\x7d" = { message := "\x7bf00\x7d", values := some [] }
      ∧ Arm.ofVariant "V" (.tuple 1) "\x7b00\x7d"
        = { variant := "V"
            pattern := .tuple [none]
            write := { message := "\x7bf00\x7d", values := some [] } }
      ∧ (Write.ofStruct (.tuple 1) "\x7b00\x7d").display [] #v["a"] (fun _ value => value)
        = none := by
  decide +kernel

end Renamed

end RegisterMachine.Derive
