import RegisterMachine.Text.Combining
import RegisterMachine.Text.Invisible
import RegisterMachine.Text.Unassigned

/-!
# Quoted text

A text as a string literal of generated code. The quote and the backslash are
escaped, the common control characters by their short names, and any other
character that cannot be seen, or would hang on the one before it, by its number
in hexadecimal. A null byte has a short name too, but a longer one where an octal
digit comes next, with which it could be confused.
-/

namespace RegisterMachine.Derive

/-- Whether a character, standing by itself, cannot be seen or cannot be told from its neighbours.
The space counts as seen. -/
def isHidden (c : Char) : Bool :=
  c != ' ' && (Text.isInvisible c || Text.isCombining c || Text.isUnassigned c)

/-- A character is hidden exactly if it is not the space and some range of one of the three tables
holds it. -/
theorem isHidden_iff {c : Char} :
    isHidden c = true ↔ c ≠ ' '
      ∧ ∃ range ∈ Text.invisibleRanges ++ Text.combiningRanges ++ Text.unassignedRanges,
        range.first ≤ c.toNat ∧ c.toNat ≤ range.last := by
  simp only [isHidden, Text.isInvisible, Text.isCombining, Text.isUnassigned, Bool.and_eq_true,
    Bool.or_eq_true, bne_iff_ne, Text.CodeRange.covers_iff Text.ascending_invisibleRanges,
    Text.CodeRange.covers_iff Text.ascending_combiningRanges,
    Text.CodeRange.covers_iff Text.ascending_unassignedRanges, List.mem_append, or_and_right,
    exists_or]

/-- A character by its number. -/
def escapeByNumber (c : Char) : List Char :=
  ['\\', 'u', '\x7b'] ++ Nat.toDigits 16 c.toNat ++ ['\x7d']

/-- A character as it stands in a literal. -/
def escapeChar (c : Char) : List Char :=
  if c = '"' then ['\\', '"']
  else if c = '\\' then ['\\', '\\']
  else if c = '\t' then ['\\', 't']
  else if c = '\r' then ['\\', 'r']
  else if c = '\n' then ['\\', 'n']
  else if isHidden c then escapeByNumber c
  else [c]

/-- Whether a text goes on with an octal digit. -/
def startsOctal : List Char → Bool
  | [] => false
  | c :: _ => '0' ≤ c && c ≤ '7'

/-- The inside of a literal. -/
def escape : List Char → List Char
  | [] => []
  | c :: rest =>
    (if c = '\x00' then (if startsOctal rest then ['\\', 'x', '0', '0'] else ['\\', '0'])
      else escapeChar c) ++ escape rest

/-- A text as a literal. -/
def quote (text : String) : String :=
  String.ofList (['"'] ++ escape text.toList ++ ['"'])

end RegisterMachine.Derive
