import RegisterMachine.Proofs.PositionNames

/-!
# Naming positions inserts letters and does no more

Nothing is assumed of a template here: its braces may be unbalanced, its keys empty or
left open. Taken apart into pieces and put together again it is what it was, and a
piece can only get one letter behind its brace (`Piece.inserted`).

That a second pass changes nothing is because it takes the text apart at the same
places (`pieces_renamed`). The letter is no brace, so it does not make a pair of the
one before it, and it does not end the key; what ends the key still follows. So the
pieces of the result are those of the template with their new keys, and a key that has
got its letter is no number.

The pieces stand for a pass over the text that takes a round for each brace it stops
at. `Pass.round` is that round, `Pass.round_cases` all that it can do. What has been
written, followed by what the rest will come to, is the same after every round, and
the rest gets shorter.
-/

namespace RegisterMachine.Derive

/-- A text with an `f` inserted after some of its opening braces. -/
inductive Inserted : List Char → List Char → Prop
  | nil : Inserted [] []
  | keep (c : Char) {text result : List Char} (h : Inserted text result) :
      Inserted (c :: text) (c :: result)
  | insert {text result : List Char} (h : Inserted text result) :
      Inserted (openBrace :: text) (openBrace :: 'f' :: result)

theorem Inserted.refl (text : List Char) : Inserted text text := by
  induction text with
  | nil => exact .nil
  | cons c text ih => exact .keep c ih

theorem Inserted.append {front back front' back' : List Char} (hfront : Inserted front front')
    (hback : Inserted back back') : Inserted (front ++ back) (front' ++ back') := by
  induction hfront with
  | nil => exact hback
  | keep c _ ih => exact .keep c ih
  | insert _ ih => exact .insert ih

variable {count : Nat} {text key rest : List Char}

theorem Piece.inserted (count : Nat) (piece : Piece) :
    Inserted piece.text (piece.namePosition count).text := by
  cases piece with
  | plain c => exact .refl _
  | doubled => exact .refl _
  | opened key =>
      rw [namePosition, text, text, keyName]
      split
      · exact .insert (.refl key)
      · exact .refl _

theorem inserted_renamed (count : Nat) (text : List Char) : Inserted text (renamed count text) := by
  have hparts : ∀ parts : List Piece,
      Inserted (parts.flatMap Piece.text)
        ((parts.map (Piece.namePosition count)).flatMap Piece.text) := by
    intro parts
    induction parts with
    | nil => exact .nil
    | cons piece parts ih => exact (piece.inserted count).append ih
  have htext := hparts (pieces text)
  rwa [flatMap_text_pieces] at htext

/-! ## The pieces of the result -/

theorem isPosition_named (count : Nat) (key : List Char) :
    isPosition count ('f' :: key) = false := by
  have hletter : Numeral.unsigned? ('f' :: key) = none := by
    simp [Numeral.unsigned?, Numeral.cardinal?, Numeral.natural?]
  rw [isPosition, hletter]

theorem keyName_keyName (count : Nat) (key : List Char) :
    keyName count (keyName count key) = keyName count key := by
  by_cases hposition : isPosition count key = true
  · simp [keyName, hposition, isPosition_named]
  · simp [keyName, hposition]

theorem namePosition_namePosition (count : Nat) (piece : Piece) :
    (piece.namePosition count).namePosition count = piece.namePosition count := by
  cases piece with
  | plain c => rfl
  | doubled => rfl
  | opened key => exact congrArg Piece.opened (keyName_keyName count key)

theorem isKeyChar_of_mem_keyName (hkey : ∀ c ∈ key, isKeyChar c = true) :
    ∀ c ∈ keyName count key, isKeyChar c = true := by
  intro c hc
  rw [keyName] at hc
  split at hc
  · rcases List.mem_cons.1 hc with rfl | hc
    · decide
    · exact hkey c hc
  · exact hkey c hc

/-- What comes after a key still ends it. -/
theorem head?_renamed_dropWhile (count : Nat) (rest : List Char) :
    ∀ c ∈ (renamed count (rest.dropWhile isKeyChar)).head?, isKeyChar c = false := by
  have hhead := List.head?_dropWhile_not isKeyChar rest
  cases hdrop : rest.dropWhile isKeyChar with
  | nil => simp [renamed_nil]
  | cons stop back =>
      rw [hdrop, List.head?_cons] at hhead
      rw [renamed_cons (ne_openBrace_of_ends hhead)]
      simpa using hhead

theorem takeWhile_dropWhile_append {front back : List Char}
    (hfront : ∀ c ∈ front, isKeyChar c = true) (hback : ∀ c ∈ back.head?, isKeyChar c = false) :
    (front ++ back).takeWhile isKeyChar = front ∧ (front ++ back).dropWhile isKeyChar = back := by
  cases back with
  | nil =>
      have htake : (front ++ []).takeWhile isKeyChar = front ++ [].takeWhile isKeyChar :=
        List.takeWhile_append_of_pos hfront
      exact ⟨htake.trans (List.append_nil front), List.dropWhile_append_of_pos hfront⟩
  | cons stop back =>
      have hstop : isKeyChar stop = false := hback stop rfl
      exact ⟨takeWhile_append_stop hfront hstop back, dropWhile_append_stop hfront hstop back⟩

/-- A key that has got its letter starts with no brace, and an empty key is followed by none. -/
theorem head?_keyName_append (hrest : rest.head? ≠ some openBrace) (count : Nat) :
    (keyName count (rest.takeWhile isKeyChar) ++ renamed count (rest.dropWhile isKeyChar)).head?
      ≠ some openBrace := by
  intro hopen
  rw [keyName] at hopen
  split at hopen
  · cases hopen
  · cases rest with
    | nil =>
        rw [List.takeWhile_nil, List.dropWhile_nil, renamed_nil] at hopen
        cases hopen
    | cons d rest =>
        by_cases hd : isKeyChar d = true
        · rw [List.takeWhile_cons_of_pos hd] at hopen
          exact hrest hopen
        · -- the key is empty, and what ends it is no brace
          rw [List.takeWhile_cons_of_neg hd, List.nil_append] at hopen
          have hends := head?_renamed_dropWhile count (d :: rest) _ hopen
          exact absurd hends (by decide)

theorem pieces_renamed_open (hrest : rest.head? ≠ some openBrace) (count : Nat) :
    pieces (renamed count (openBrace :: rest))
      = .opened (keyName count (rest.takeWhile isKeyChar))
        :: pieces (renamed count (rest.dropWhile isKeyChar)) := by
  have hkey : ∀ c ∈ rest.takeWhile isKeyChar, isKeyChar c = true :=
    List.all_eq_true.1 List.all_takeWhile
  obtain ⟨htake, hdrop⟩ := takeWhile_dropWhile_append (isKeyChar_of_mem_keyName hkey)
    (head?_renamed_dropWhile count rest)
  rw [renamed_open hrest, pieces_opened (head?_keyName_append hrest count), htake, hdrop]

/-- A template with names for its positions comes apart where it did before. -/
theorem pieces_renamed (count : Nat) (text : List Char) :
    pieces (renamed count text) = (pieces text).map (Piece.namePosition count) := by
  fun_induction pieces text with
  | case1 => rw [renamed_nil, pieces, List.map_nil]
  | case2 =>
      rw [pieces_renamed_open (by simp), List.takeWhile_nil, List.dropWhile_nil, renamed_nil,
        pieces]
      rfl
  | case3 rest ih =>
      rw [renamed_doubled, pieces_doubled, ih]
      rfl
  | case4 d rest hd ih =>
      have hrest : (d :: rest).head? ≠ some openBrace := fun h => hd (Option.some.inj h)
      rw [pieces_renamed_open hrest, ih]
      rfl
  | case5 c rest hc ih =>
      rw [renamed_cons hc, pieces_cons hc, ih]
      rfl

theorem renamed_renamed (count : Nat) (text : List Char) :
    renamed count (renamed count text) = renamed count text := by
  rw [renamed, pieces_renamed, List.map_map]
  exact congrArg (List.flatMap Piece.text)
    (List.map_congr_left fun piece _ => namePosition_namePosition count piece)

theorem renamed_zero (text : List Char) : renamed 0 text = text := by
  have hsame : ∀ piece : Piece, piece.namePosition 0 = piece := by
    intro piece
    cases piece with
    | plain c => rfl
    | doubled => rfl
    | opened key =>
        have hno : isPosition 0 key = false := by
          rw [isPosition]
          split <;> simp
        rw [Piece.namePosition, keyName, hno]
        rfl
  have hmap : (pieces text).map (Piece.namePosition 0) = pieces text :=
    List.map_id'' hsame _
  rw [renamed, hmap, flatMap_text_pieces]

/-! ## Round by round -/

/-- A pass over a template: what has been written, and what has not been looked at. -/
structure Pass where
  written : List Char
  rest : List Char
  deriving DecidableEq

namespace Pass

/-- Goes on to the next opening brace, if there is one, and takes it: with a second one, or else
with the key that follows. -/
def round (count : Nat) (pass : Pass) : Option Pass :=
  match pass.rest.dropWhile (· != openBrace) with
  | [] => none
  | _ :: after =>
    let front := pass.written ++ pass.rest.takeWhile (· != openBrace)
    if after.head? = some openBrace then some ⟨front ++ [openBrace, openBrace], after.tail⟩
    else some ⟨front ++ openBrace :: keyName count (after.takeWhile isKeyChar),
      after.dropWhile isKeyChar⟩

/-- The pass after so many rounds, if there are as many. -/
def after (count : Nat) : Nat → Pass → Option Pass
  | 0, pass => some pass
  | rounds + 1, pass => (pass.round count).bind (after count rounds)

variable {pass next : Pass}

/-- All that a round can do. -/
theorem round_cases (count : Nat) (pass : Pass) :
    (pass.round count = none ∧ ∀ c ∈ pass.rest, c ≠ openBrace)
    ∨ ∃ front after, pass.rest = front ++ openBrace :: after ∧ (∀ c ∈ front, c ≠ openBrace)
      ∧ ((∃ back, after = openBrace :: back
          ∧ pass.round count = some ⟨pass.written ++ front ++ [openBrace, openBrace], back⟩)
        ∨ (after.head? ≠ some openBrace
          ∧ pass.round count
            = some ⟨pass.written ++ front ++ openBrace :: keyName count (after.takeWhile isKeyChar),
              after.dropWhile isKeyChar⟩)) := by
  have hfront : ∀ c ∈ pass.rest.takeWhile (· != openBrace), c ≠ openBrace := fun c hc =>
    bne_iff_ne.1 (List.all_eq_true.1 List.all_takeWhile c hc)
  have hparts := (List.takeWhile_append_dropWhile (p := (· != openBrace)) (l := pass.rest)).symm
  have hhead := List.head?_dropWhile_not (· != openBrace) pass.rest
  cases hdrop : pass.rest.dropWhile (· != openBrace) with
  | nil =>
      rw [hdrop, List.append_nil] at hparts
      refine .inl ⟨by rw [round, hdrop], ?_⟩
      rw [hparts]
      exact hfront
  | cons c after =>
      rw [hdrop] at hparts hhead
      obtain rfl : c = openBrace := by simpa using hhead
      refine .inr ⟨_, after, hparts, hfront, ?_⟩
      by_cases hsecond : after.head? = some openBrace
      · obtain ⟨back, rfl⟩ : ∃ back, after = openBrace :: back := by
          cases after with
          | nil => cases hsecond
          | cons d back => exact ⟨back, by rw [Option.some.inj hsecond]⟩
        refine .inl ⟨back, rfl, ?_⟩
        rw [round, hdrop]
        exact if_pos hsecond
      · refine .inr ⟨hsecond, ?_⟩
        rw [round, hdrop]
        exact if_neg hsecond

/-- A round takes something off the front of what has not been looked at. -/
theorem rest_of_round (h : pass.round count = some next) :
    next.rest <:+ pass.rest ∧ next.rest.length < pass.rest.length := by
  obtain ⟨hnone, -⟩ | ⟨front, after, hrest, -, hround⟩ := round_cases count pass
  · cases h.symm.trans hnone
  · have hafter : next.rest <:+ after := by
      obtain ⟨back, rfl, hpair⟩ | ⟨-, hkey⟩ := hround
      · cases h.symm.trans hpair
        exact List.suffix_cons _ _
      · cases h.symm.trans hkey
        exact List.dropWhile_suffix _
    have hlength := hafter.length_le
    have hsuffix : after <:+ front ++ openBrace :: after :=
      ⟨front ++ [openBrace], by simp⟩
    rw [hrest]
    refine ⟨hafter.trans hsuffix, ?_⟩
    simp only [List.length_append, List.length_cons]
    omega

/-- What has been written and what the rest will come to make up the same text after a round. -/
theorem written_of_round (h : pass.round count = some next) :
    next.written ++ renamed count next.rest = pass.written ++ renamed count pass.rest := by
  obtain ⟨hnone, -⟩ | ⟨front, after, hrest, hfront, hround⟩ := round_cases count pass
  · cases h.symm.trans hnone
  · rw [hrest, renamed_append hfront]
    obtain ⟨back, rfl, hpair⟩ | ⟨hopen, hkey⟩ := hround
    · cases h.symm.trans hpair
      rw [renamed_doubled]
      simp
    · cases h.symm.trans hkey
      rw [renamed_open hopen]
      simp

theorem written_of_last (h : pass.round count = none) :
    pass.written ++ pass.rest = pass.written ++ renamed count pass.rest := by
  obtain ⟨-, hbare⟩ | ⟨_, _, -, -, ⟨_, -, hpair⟩ | ⟨-, hkey⟩⟩ := round_cases count pass
  · have hplain := renamed_append hbare count []
    rw [renamed_nil, List.append_nil] at hplain
    rw [hplain]
  · cases h.symm.trans hpair
  · cases h.symm.trans hkey

/-- A pass ends, and by then it has written what its rest comes to. -/
theorem exists_last (count : Nat) (pass : Pass) :
    ∃ rounds ≤ pass.rest.length, ∃ last, pass.after count rounds = some last
      ∧ last.round count = none
      ∧ last.written ++ last.rest = pass.written ++ renamed count pass.rest := by
  cases hround : pass.round count with
  | none => exact ⟨0, Nat.zero_le _, pass, rfl, hround, written_of_last hround⟩
  | some next =>
      have hshorter := (rest_of_round hround).2
      obtain ⟨rounds, hle, last, hafter, hlast, hwritten⟩ := exists_last count next
      refine ⟨rounds + 1, by omega, last, ?_, hlast, hwritten.trans (written_of_round hround)⟩
      rw [after, hround]
      exact hafter
termination_by pass.rest.length

end Pass

/-- Whatever a message looks like, naming positions inserts a letter after some of its opening
braces and changes nothing else. To do it again, or for no fields, changes nothing at all. The
rounds of the pass end, since each of them takes something off the rest of the message. -/
theorem namePositions_only_inserts (count : Nat) (message : String) :
    Inserted message.toList (namePositions count message).toList
    ∧ namePositions count (namePositions count message) = namePositions count message
    ∧ namePositions 0 message = message
    ∧ (∀ pass next : Pass, pass.round count = some next →
      next.rest <:+ pass.rest ∧ next.rest.length < pass.rest.length)
    ∧ ∃ rounds ≤ message.length, ∃ last, Pass.after count rounds ⟨[], message.toList⟩ = some last
      ∧ last.round count = none
      ∧ String.ofList (last.written ++ last.rest) = namePositions count message := by
  have hnamed : ∀ count message,
      namePositions count message = String.ofList (renamed count message.toList) :=
    fun _ _ => rfl
  refine ⟨?_, ?_, ?_, fun _ _ => Pass.rest_of_round, ?_⟩
  · rw [hnamed, String.toList_ofList]
    exact inserted_renamed count message.toList
  · rw [hnamed count message, hnamed, String.toList_ofList, renamed_renamed]
  · rw [hnamed, renamed_zero, String.ofList_toList]
  · obtain ⟨rounds, hle, last, hafter, hlast, hwritten⟩ :=
      Pass.exists_last count ⟨[], message.toList⟩
    refine ⟨rounds, ?_, last, hafter, hlast, congrArg String.ofList hwritten⟩
    rw [← String.length_toList]
    exact hle

/-- A key with a brace in it, a brace before a placeholder, and one at the end. -/
theorem namePositions_only_inserts_unbalanced :
    let message := "\x7b0\x7b1\x7d\x7b\x7b\x7b1:>4\x7d\x7b"
    let named := "\x7b0\x7b1\x7d\x7b\x7b\x7bf1:>4\x7d\x7b"
    namePositions 2 message = named
      ∧ namePositions 2 named = named
      ∧ Inserted message.toList named.toList
      ∧ ∃ next, Pass.round 2 ⟨[], message.toList⟩ = some next
        ∧ next.written = "\x7b0\x7b1".toList
        ∧ next.rest.length < message.toList.length := by
  intro message named
  have hnamed : namePositions 2 message = named := by decide +kernel
  obtain ⟨hinserted, hagain, -, hrounds, -⟩ := namePositions_only_inserts 2 message
  have hround : Pass.round 2 ⟨[], message.toList⟩
      = some ⟨"\x7b0\x7b1".toList, "\x7d\x7b\x7b\x7b1:>4\x7d\x7b".toList⟩ := by
    decide +kernel
  rw [hnamed] at hinserted hagain
  exact ⟨hnamed, hagain, hinserted, _, hround, rfl, (hrounds _ _ hround).2⟩

end RegisterMachine.Derive
