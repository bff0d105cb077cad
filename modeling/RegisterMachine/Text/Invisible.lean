import RegisterMachine.Text.Blank
import RegisterMachine.Text.CodeRange

/-!
# Invisible characters

The characters that leave no mark of their own on a page: controls, separators,
marks of format, and the fillers that a display may ignore. Every blank character
is one of them.
-/

namespace RegisterMachine.Text

/-- The characters of the categories `Cc`, `Cf`, `Zs`, `Zl` and `Zp`, and the letters with the
property `Default_Ignorable_Code_Point`. -/
def invisibleRanges : List CodeRange :=
  [⟨0x0, 0x20⟩, ⟨0x7f, 0xa0⟩, ⟨0xad, 0xad⟩, ⟨0x600, 0x605⟩, ⟨0x61c, 0x61c⟩, ⟨0x6dd, 0x6dd⟩,
   ⟨0x70f, 0x70f⟩, ⟨0x890, 0x891⟩, ⟨0x8e2, 0x8e2⟩, ⟨0x115f, 0x1160⟩, ⟨0x1680, 0x1680⟩,
   ⟨0x180e, 0x180e⟩, ⟨0x2000, 0x200f⟩, ⟨0x2028, 0x202f⟩, ⟨0x205f, 0x2064⟩, ⟨0x2066, 0x206f⟩,
   ⟨0x3000, 0x3000⟩, ⟨0x3164, 0x3164⟩, ⟨0xfeff, 0xfeff⟩, ⟨0xffa0, 0xffa0⟩, ⟨0xfff9, 0xfffb⟩,
   ⟨0x110bd, 0x110bd⟩, ⟨0x110cd, 0x110cd⟩, ⟨0x13430, 0x1343f⟩, ⟨0x1bca0, 0x1bca3⟩,
   ⟨0x1d173, 0x1d17a⟩, ⟨0xe0001, 0xe0001⟩, ⟨0xe0020, 0xe007f⟩]

/-- Whether a character leaves no mark of its own. -/
def isInvisible (c : Char) : Bool :=
  CodeRange.covers invisibleRanges c.toNat

theorem ascending_invisibleRanges : CodeRange.ascending invisibleRanges = true := by
  decide

/-- A blank character is invisible. -/
theorem isInvisible_of_isBlank {c : Char} (h : isBlank c = true) : isInvisible c = true := by
  have hall : ∀ code ∈ blankCodes, CodeRange.covers invisibleRanges code = true := by decide
  exact hall c.toNat (List.contains_iff_mem.mp h)

end RegisterMachine.Text
