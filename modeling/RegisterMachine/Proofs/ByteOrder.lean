import RegisterMachine.Proofs.SourceText
import Mathlib.Data.String.Basic

/-!
# The order of texts is the order of their bytes

Texts are compared character by character, and so whoever compares what they are
written as, byte by byte, seems to do something else. It comes to the same. The
first byte of a character tells how many follow, and more for a greater code
point; where as many follow, the bytes are the digits of the code point, the
greatest first. So the first byte that differs decides as the code points do, and
no character is written as the beginning of another.

`marked` is the shape of all four encodings, and `utf8EncodeChar_eq_marked` finds
it in each. The rest needs that shape only.
-/

namespace RegisterMachine.Source

/-- Digits to base 64, the greatest first and marked as such. So many follow it. -/
def marked (mark : Nat) : Nat → Nat → List UInt8
  | 0, code => [UInt8.ofNat (code + mark)]
  | following + 1, code => marked mark following (code / 64) ++ [UInt8.ofNat (code % 64 + 128)]

/-- How many bytes follow the first one of a character. -/
def following (code : Nat) : Nat :=
  if code < 0x80 then 0 else if code < 0x800 then 1 else if code < 0x10000 then 2 else 3

/-- What is added to the greatest digit when so many bytes follow. -/
def leadMark : Nat → Nat
  | 0 => 0
  | 1 => 192
  | 2 => 224
  | _ => 240

/-- The first byte of a character. -/
def lead (code : Nat) : Nat :=
  code / 64 ^ following code + leadMark (following code)

theorem code_lt (c : Char) : c.toNat < 0x110000 := by
  have hvalid := c.valid
  simp only [UInt32.isValidChar, Nat.isValidChar] at hvalid
  show c.val.toNat < 0x110000
  omega

theorem utf8EncodeChar_eq_marked (c : Char) :
    String.utf8EncodeChar c
      = marked (leadMark (following c.toNat)) (following c.toNat) c.toNat := by
  have hcode : c.val.toNat < 0x110000 := code_lt c
  show _ = marked (leadMark (following c.val.toNat)) (following c.val.toNat) c.val.toNat
  simp only [String.utf8EncodeChar, following, ← Nat.lt_add_one_iff, Nat.reduceAdd]
  generalize c.val.toNat = code at hcode
  -- The greatest digit is reduced there, though it is below the modulus anyway.
  split_ifs with h₁ h₂ h₃
  · rfl
  · rw [Nat.mod_eq_of_lt (show code / 64 < 32 by omega)]
    rfl
  · rw [Nat.mod_eq_of_lt (show code / 4096 < 16 by omega), ← Nat.div_div_eq_div_mul code 64 64]
    rfl
  · rw [Nat.mod_eq_of_lt (show code / 262144 < 8 by omega), ← Nat.div_div_eq_div_mul code 4096 64,
      ← Nat.div_div_eq_div_mul code 64 64]
    rfl

theorem marked_eq_cons (mark : Nat) (following code : Nat) :
    ∃ rest, marked mark following code = UInt8.ofNat (code / 64 ^ following + mark) :: rest := by
  induction following generalizing code with
  | zero => exact ⟨[], by rw [marked, Nat.pow_zero, Nat.div_one]⟩
  | succ following ih =>
      obtain ⟨rest, hrest⟩ := ih (code / 64)
      refine ⟨rest ++ [UInt8.ofNat (code % 64 + 128)], ?_⟩
      rw [marked, hrest, Nat.div_div_eq_div_mul, Nat.pow_succ']
      rfl

theorem utf8EncodeChar_eq_cons (c : Char) :
    ∃ rest, String.utf8EncodeChar c = UInt8.ofNat (lead c.toNat) :: rest := by
  rw [utf8EncodeChar_eq_marked]
  exact marked_eq_cons _ _ _

theorem ofNat_lt_ofNat {n m : Nat} (h : n < m) (hm : m < 256) : UInt8.ofNat n < UInt8.ofNat m := by
  rw [UInt8.lt_iff_toNat_lt, UInt8.toNat_ofNat', UInt8.toNat_ofNat']
  omega

/-- Where as many bytes follow, the smaller code point is written as the smaller bytes. -/
theorem marked_append_lt {mark following n m : Nat} (h : n < m)
    (hm : m / 64 ^ following + mark < 256) (left right : List UInt8) :
    marked mark following n ++ left < marked mark following m ++ right := by
  induction following generalizing n m left right with
  | zero =>
      rw [Nat.pow_zero, Nat.div_one] at hm
      exact List.cons_lt_cons_iff.2 (.inl (ofNat_lt_ofNat (by omega) hm))
  | succ following ih =>
      rw [Nat.pow_succ', ← Nat.div_div_eq_div_mul] at hm
      simp only [marked, List.append_assoc]
      -- The digits before the last one decide, and if they are the same, the last one does.
      rcases Nat.lt_or_eq_of_le (Nat.div_le_div_right (c := 64) h.le) with hbefore | hbefore
      · exact ih hbefore hm _ _
      · rw [hbefore]
        refine List.append_left_lt (List.cons_lt_cons_iff.2 (.inl (ofNat_lt_ofNat ?_ ?_))) <;> omega

theorem following_mono {n m : Nat} (h : n ≤ m) : following n ≤ following m := by
  unfold following
  split_ifs <;> omega

theorem lead_lt {n m : Nat} (h : following n < following m) (hn : n < 0x110000) :
    lead n < lead m := by
  unfold lead following at *
  split_ifs at * <;> simp only [leadMark] <;> omega

theorem lead_lt_byte {code : Nat} (h : code < 0x110000) : lead code < 256 := by
  unfold lead following
  split_ifs <;> simp only [leadMark] <;> omega

theorem utf8EncodeChar_append_lt {c d : Char} (h : c < d) (left right : List UInt8) :
    String.utf8EncodeChar c ++ left < String.utf8EncodeChar d ++ right := by
  have hcode : c.toNat < d.toNat := h
  have hbyte : lead d.toNat < 256 := lead_lt_byte (code_lt d)
  rcases Nat.lt_or_eq_of_le (following_mono hcode.le) with hfewer | hsame
  · obtain ⟨front, hfront⟩ := utf8EncodeChar_eq_cons c
    obtain ⟨back, hback⟩ := utf8EncodeChar_eq_cons d
    have hlead : lead c.toNat < lead d.toNat := lead_lt hfewer (code_lt c)
    rw [hfront, hback]
    exact List.cons_lt_cons_iff.2 (.inl (ofNat_lt_ofNat hlead hbyte))
  · rw [utf8EncodeChar_eq_marked, utf8EncodeChar_eq_marked, hsame]
    exact marked_append_lt hcode hbyte left right

/-- The order of texts is that of their bytes. -/
theorem encode_lt {front back : List Char} (h : front < back) : encode front < encode back := by
  induction front generalizing back with
  | nil =>
      cases back with
      | nil => exact absurd h (List.not_lt_nil _)
      | cons d back =>
          rcases hbytes : encode (d :: back) with _ | ⟨byte, bytes⟩
          · exact absurd (encode_eq_nil_iff.1 hbytes) (List.cons_ne_nil d back)
          · exact List.nil_lt_cons byte bytes
  | cons c front ih =>
      cases back with
      | nil => exact absurd h (List.not_lt_nil _)
      | cons d back =>
          rcases List.cons_lt_cons_iff.1 h with hlt | ⟨rfl, hlt⟩
          · exact utf8EncodeChar_append_lt hlt _ _
          · exact List.append_left_lt (ih hlt)

theorem bytes_lt_of_compare {front back : String} (h : compare front back = .lt) :
    (ofText front).bytes < (ofText back).bytes := by
  rw [bytes_ofText, bytes_ofText]
  exact encode_lt (String.lt_iff.1 (compare_lt_iff_lt.1 h))

end RegisterMachine.Source
