import RegisterMachine.Text.Numeral

/-!
# Message templates

The message of an error is a template. A placeholder names a field between
braces, by its name or by its position, and may say after a colon how to format
it; two opening braces stand for a brace. All fields are to be passed by name in
the end, so a position is given a name: `0` becomes `f0`.

Any text at all is a template, balanced or not. It is taken apart into pieces
that put together give it back, and naming positions changes nothing but the
keys of some pieces.
-/

namespace RegisterMachine.Derive

/-- The brace that a placeholder starts with. -/
def openBrace : Char :=
  '\x7b'

/-- The brace that a placeholder ends with. -/
def closeBrace : Char :=
  '\x7d'

/-- Whether a character can be part of a key. A key ends at a closing brace or a colon. -/
def isKeyChar (c : Char) : Bool :=
  c != closeBrace && c != ':'

/-- A part of a template. -/
inductive Piece
  /-- A character that opens nothing. -/
  | plain (c : Char)
  /-- Two opening braces in a row, which stand for one. -/
  | doubled
  /-- An opening brace and the key that follows it. -/
  | opened (key : List Char)
  deriving DecidableEq, Repr, Inhabited

/-- The text of a piece. -/
def Piece.text : Piece → List Char
  | plain c => [c]
  | doubled => [openBrace, openBrace]
  | opened key => openBrace :: key

/-- The pieces of a template, from left to right. -/
def pieces : List Char → List Piece
  | [] => []
  | c :: rest =>
    if c = openBrace then
      match rest with
      | [] => [.opened []]
      | d :: rest =>
        if d = openBrace then .doubled :: pieces rest
        else .opened ((d :: rest).takeWhile isKeyChar) :: pieces ((d :: rest).dropWhile isKeyChar)
    else .plain c :: pieces rest
termination_by text => text.length
decreasing_by
  · simp only [List.length_cons]; omega
  · have hlength := (List.dropWhile_suffix (l := d :: rest) isKeyChar).length_le
    simp only [List.length_cons] at hlength ⊢
    omega
  · simp only [List.length_cons]; omega

/-- Whether a key is the position of one of so many fields. -/
def isPosition (count : Nat) (key : List Char) : Bool :=
  match Numeral.unsigned? key with
  | some index => index.toNat < count
  | none => false

/-- A key as it is when positions have names. -/
def keyName (count : Nat) (key : List Char) : List Char :=
  if isPosition count key then 'f' :: key else key

/-- A piece as it is when positions have names. -/
def Piece.namePosition (count : Nat) : Piece → Piece
  | opened key => opened (keyName count key)
  | piece => piece

/-- The template for so many fields with names for their positions. -/
def namePositions (count : Nat) (message : String) : String :=
  String.ofList (((pieces message.toList).map (Piece.namePosition count)).flatMap Piece.text)

/-- Whether a text contains another. -/
def occursIn (part : List Char) : List Char → Bool
  | [] => part.isEmpty
  | c :: rest => part.isPrefixOf (c :: rest) || occursIn part rest

/-- Whether a placeholder with this key, formatted or not, occurs in a template. -/
def mentions (message key : String) : Bool :=
  occursIn (openBrace :: key.toList ++ [closeBrace]) message.toList
    || occursIn (openBrace :: key.toList ++ [':']) message.toList

theorem occursIn_iff {part text : List Char} : occursIn part text = true ↔ part <:+: text := by
  induction text with
  | nil => simp [occursIn]
  | cons c rest ih =>
      rw [occursIn, Bool.or_eq_true, List.isPrefixOf_iff_prefix, ih, List.infix_cons_iff]

/-- The pieces of a template put together are the template. -/
theorem flatMap_text_pieces (text : List Char) : (pieces text).flatMap Piece.text = text := by
  fun_induction pieces text with
  | case1 => rfl
  | case2 => rfl
  | case3 rest ih => simp [Piece.text, ih]
  | case4 d rest hsecond ih =>
      rw [List.flatMap_cons, ih, Piece.text, List.cons_append, List.takeWhile_append_dropWhile]
  | case5 c rest hplain ih => simp [Piece.text, ih]

end RegisterMachine.Derive
