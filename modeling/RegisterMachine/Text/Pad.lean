/-!
# Fixed-width fields

Cutting a text to a number of characters and filling it up to another. Widths
count characters, not bytes, and a text that is already wide enough is left as
it is.
-/

namespace RegisterMachine.Text

/-- Where a text stands in a field that is wider than itself. -/
inductive Alignment
  | left
  | right
  | center
  deriving DecidableEq, Repr

/-- How many of the spare places of a field come before the text. When a centered text leaves an
odd number of them, the one that cannot be shared comes after it. -/
def Alignment.before (alignment : Alignment) (spare : Nat) : Nat :=
  match alignment with
  | .left => 0
  | .right => spare
  | .center => spare / 2

/-- The same character a number of times. -/
def fill (c : Char) (count : Nat) : String :=
  String.ofList (List.replicate count c)

/-- The first characters of a text, at most as many as asked for. -/
def cut (length : Nat) (text : String) : String :=
  String.ofList (text.toList.take length)

/-- Fills a text with spaces up to the width of its field. -/
def pad (alignment : Alignment) (width : Nat) (text : String) : String :=
  let spare := width - text.length
  let before := alignment.before spare
  fill ' ' before ++ text ++ fill ' ' (spare - before)

/-- Fills a text with zeros on the left up to the width of its field. -/
def padZero (width : Nat) (text : String) : String :=
  fill '0' (width - text.length) ++ text

theorem Alignment.before_le (alignment : Alignment) (spare : Nat) :
    alignment.before spare ≤ spare := by
  cases alignment <;> simp only [before] <;> omega

theorem length_fill (c : Char) (count : Nat) : (fill c count).length = count := by
  simp [fill, ← String.length_toList]

/-- A padded text is as wide as its field, or as itself when it does not fit. -/
theorem length_pad (alignment : Alignment) (width : Nat) (text : String) :
    (pad alignment width text).length = max width text.length := by
  have := alignment.before_le (width - text.length)
  simp only [pad, String.length_append, length_fill]
  omega

theorem length_padZero (width : Nat) (text : String) :
    (padZero width text).length = max width text.length := by
  simp only [padZero, String.length_append, length_fill]
  omega

end RegisterMachine.Text
