import Mathlib.Algebra.Group.Int.Defs
import Mathlib.Algebra.Group.Nat.Defs
import Mathlib.Data.List.Induction
import RegisterMachine.Proofs.RoundTrip

/-!
# Which tokens are numerals

A reader of numerals takes a sign off the front, looks whether the rest is a row of
digits, finds its value and holds it against the range of a word. Here a numeral is
told without a reader, by how it is put together: from its digits, of which each one
makes ten times as much of those before it (`Digits`), and from a sign (`Signed`,
`Unsigned`). Nothing bounds the number of the digits, and zeros in front are digits
like all others.

The two are the same. That a row of digits has its value goes by the rules of
`Digits`, and that a text which is read is such a row by taking off its last
character. A digit is no sign, so the sign that a reader takes off is the one that was
put in front. An operand is then read exactly if its token is a numeral in range, and
else the complaint shows the token.
-/

namespace RegisterMachine

namespace Numeral

/-- The decimal digits of a number, most significant first. -/
inductive Digits : List Char → Nat → Prop
  | single {d : Nat} (hdigit : d < 10) : Digits [Nat.digitChar d] d
  | concat {text : List Char} {n d : Nat} (hfront : Digits text n) (hdigit : d < 10) :
      Digits (text ++ [Nat.digitChar d]) (10 * n + d)

/-- A numeral that may have either sign. -/
inductive Signed : List Char → Int → Prop
  | bare {digits : List Char} {n : Nat} (hvalue : Digits digits n) : Signed digits n
  | plus {digits : List Char} {n : Nat} (hvalue : Digits digits n) : Signed ('+' :: digits) n
  | minus {digits : List Char} {n : Nat} (hvalue : Digits digits n) : Signed ('-' :: digits) (-n)

/-- A numeral that may have a plus and no other sign. -/
inductive Unsigned : List Char → Nat → Prop
  | bare {digits : List Char} {n : Nat} (hvalue : Digits digits n) : Unsigned digits n
  | plus {digits : List Char} {n : Nat} (hvalue : Digits digits n) : Unsigned ('+' :: digits) n

variable {text : List Char} {n : Nat} {v : Int}

/-! ## Rows of digits -/

theorem exists_digitChar {c : Char} (h : c.isDigit = true) : ∃ d < 10, c = Nat.digitChar d := by
  have hrange : 48 ≤ c.toNat ∧ c.toNat ≤ 57 := by
    simpa [Char.isDigit, UInt32.le_iff_toNat_le] using h
  refine ⟨c.toNat - 48, by omega, Char.toNat_inj.1 ?_⟩
  rw [Nat.toNat_digitChar_of_lt_ten (by omega)]
  omega

theorem ofDigitChars_concat (text : List Char) {d : Nat} (hd : d < 10) :
    Nat.ofDigitChars 10 (text ++ [Nat.digitChar d]) 0 = 10 * Nat.ofDigitChars 10 text 0 + d := by
  rw [Nat.ofDigitChars_append, Nat.ofDigitChars_cons_digitChar_of_lt_ten hd, Nat.ofDigitChars_nil]

theorem Digits.isDigit_of_mem (h : Digits text n) : ∀ c ∈ text, c.isDigit = true := by
  induction h with
  | single hd => simp [Nat.isDigit_digitChar, hd]
  | concat _ hd ih =>
      intro c hc
      rcases List.mem_append.1 hc with hfront | hlast
      · exact ih c hfront
      · rw [List.mem_singleton.1 hlast, Nat.isDigit_digitChar]
        exact decide_eq_true hd

theorem Digits.ofDigitChars_eq (h : Digits text n) : Nat.ofDigitChars 10 text 0 = n := by
  induction h with
  | single hd => simpa using ofDigitChars_concat [] hd
  | concat _ hd ih => rw [ofDigitChars_concat _ hd, ih]

theorem Digits.ne_nil (h : Digits text n) : text ≠ [] := by
  cases h <;> simp

theorem digits_ofDigitChars (hne : text ≠ []) (hall : ∀ c ∈ text, c.isDigit = true) :
    Digits text (Nat.ofDigitChars 10 text 0) := by
  induction text using List.reverseRecOn with
  | nil => exact absurd rfl hne
  | append_singleton front c ih =>
      obtain ⟨d, hd, rfl⟩ := exists_digitChar (hall c (by simp))
      rw [ofDigitChars_concat front hd]
      by_cases hfront : front = []
      · subst hfront
        simpa using Digits.single hd
      · exact .concat (ih hfront fun c hc => hall c (by simp [hc])) hd

theorem natural?_eq_some_iff : natural? text = some n ↔ Digits text n := by
  rw [natural?]
  constructor
  · intro h
    split at h
    · next hdigits =>
        cases h
        exact digits_ofDigitChars hdigits.1 (List.all_eq_true.1 hdigits.2)
    · cases h
  · intro h
    rw [if_pos ⟨h.ne_nil, List.all_eq_true.2 h.isDigit_of_mem⟩, h.ofDigitChars_eq]

theorem digits_zeros_iff (zeros : Nat) (c : Char) :
    Digits (List.replicate zeros '0' ++ c :: text) n ↔ Digits (c :: text) n := by
  have hvalue : Nat.ofDigitChars 10 (List.replicate zeros '0' ++ c :: text) 0
      = Nat.ofDigitChars 10 (c :: text) 0 := by
    rw [Nat.ofDigitChars_append, Nat.ofDigitChars_replicate_zero, Nat.mul_zero]
  simp only [← natural?_eq_some_iff, natural?, hvalue]
  simp

/-! ## Signs -/

theorem Digits.ne_of_head {c : Char} (h : Digits (c :: text) n) : c ≠ '-' ∧ c ≠ '+' := by
  have hdigit := h.isDigit_of_mem c List.mem_cons_self
  constructor <;> rintro rfl <;> exact absurd hdigit (by decide)

theorem integer?_eq_some_iff : integer? text = some v ↔ Signed text v := by
  constructor
  · intro h
    unfold integer? at h
    split at h
    · obtain ⟨w, hw, rfl⟩ := Option.map_eq_some_iff.1 h
      obtain ⟨n, hn, hcast⟩ := Option.bind_eq_some_iff.1 hw
      cases hcast
      exact .minus (natural?_eq_some_iff.1 hn)
    · obtain ⟨n, hn, rfl⟩ := Option.map_eq_some_iff.1 h
      exact .plus (natural?_eq_some_iff.1 hn)
    · obtain ⟨n, hn, rfl⟩ := Option.map_eq_some_iff.1 h
      exact .bare (natural?_eq_some_iff.1 hn)
  · intro h
    cases h with
    | bare h =>
        have hminus : ∀ rest, text ≠ '-' :: rest := by
          rintro rest rfl
          exact h.ne_of_head.1 rfl
        have hplus : ∀ rest, text ≠ '+' :: rest := by
          rintro rest rfl
          exact h.ne_of_head.2 rfl
        rw [integer?.eq_3 _ hminus hplus, natural?_eq_some_iff.2 h]
        rfl
    | plus h =>
        rw [integer?, natural?_eq_some_iff.2 h]
        rfl
    | minus h =>
        rw [integer?, natural?_eq_some_iff.2 h]
        rfl

theorem cardinal?_eq_some_iff : cardinal? text = some n ↔ Unsigned text n := by
  constructor
  · intro h
    unfold cardinal? at h
    split at h
    · exact .plus (natural?_eq_some_iff.1 h)
    · exact .bare (natural?_eq_some_iff.1 h)
  · intro h
    cases h with
    | bare h =>
        have hplus : ∀ rest, text ≠ '+' :: rest := by
          rintro rest rfl
          exact h.ne_of_head.2 rfl
        rw [cardinal?.eq_2 _ hplus, natural?_eq_some_iff.2 h]
    | plus h => rw [cardinal?, natural?_eq_some_iff.2 h]

/-! ## Ranges -/

theorem signed?_eq_some_iff {word : Int64} : signed? text = some word ↔ Signed text word.toInt := by
  rw [← integer?_eq_some_iff, signed?]
  constructor
  · intro h
    obtain ⟨v, hv, hrange⟩ := Option.bind_eq_some_iff.1 h
    split at hrange
    · next hfits =>
        have hlt : v < 2 ^ 63 := Int.lt_of_le_sub_one hfits.2
        cases hrange
        rw [hv, Int64.toInt_ofInt_of_le hfits.1 hlt]
    · cases hrange
  · intro h
    rw [h, Option.bind_eq_bind, Option.bind_some,
      if_pos ⟨word.minValue_le_toInt, word.toInt_le⟩, Int64.ofInt_toInt]

theorem unsigned?_eq_some_iff {word : UInt64} :
    unsigned? text = some word ↔ Unsigned text word.toNat := by
  rw [← cardinal?_eq_some_iff, unsigned?]
  constructor
  · intro h
    obtain ⟨n, hn, hrange⟩ := Option.bind_eq_some_iff.1 h
    split at hrange
    · next hfits =>
        cases hrange
        exact hn.trans (congrArg some (UInt64.toNat_ofNat_of_lt hfits).symm)
    · cases hrange
  · intro h
    rw [h, Option.bind_eq_bind, Option.bind_some, if_pos word.toNat_lt_size, UInt64.ofNat_toNat]

theorem exists_signed?_iff :
    (∃ word, signed? text = some word ∧ word.toInt = v)
      ↔ Signed text v ∧ -2 ^ 63 ≤ v ∧ v < 2 ^ 63 := by
  constructor
  · rintro ⟨word, hword, rfl⟩
    exact ⟨signed?_eq_some_iff.1 hword, word.le_toInt, word.toInt_lt⟩
  · rintro ⟨hsigned, hle, hlt⟩
    have hv : (Int64.ofInt v).toInt = v := Int64.toInt_ofInt_of_le hle hlt
    exact ⟨.ofInt v, signed?_eq_some_iff.2 (hv.symm ▸ hsigned), hv⟩

theorem exists_unsigned?_iff :
    (∃ word, unsigned? text = some word ∧ word.toNat = n) ↔ Unsigned text n ∧ n < 2 ^ 64 := by
  constructor
  · rintro ⟨word, hword, rfl⟩
    exact ⟨unsigned?_eq_some_iff.1 hword, word.toNat_lt⟩
  · rintro ⟨hunsigned, hlt⟩
    have hn : (UInt64.ofNat n).toNat = n := UInt64.toNat_ofNat_of_lt hlt
    exact ⟨.ofNat n, unsigned?_eq_some_iff.2 (hn.symm ▸ hunsigned), hn⟩

end Numeral

/-! ## Tokens in their slots -/

namespace OperandKind

variable {token : String}

theorem read_integer_eq_ok_iff {word : Int64} :
    integer.read token = .ok (.integer word) ↔ Numeral.signed? token.toList = some word := by
  rw [read]
  cases Numeral.signed? token.toList <;> simp

theorem read_register_eq_ok_iff {word : UInt64} :
    register.read token = .ok (.register word) ↔ Numeral.unsigned? token.toList = some word := by
  rw [read]
  cases Numeral.unsigned? token.toList <;> simp

theorem read_integer_eq_error_iff :
    integer.read token = .error (.expectedInteger token)
      ↔ ¬ ∃ word, Numeral.signed? token.toList = some word := by
  rw [read]
  cases Numeral.signed? token.toList <;> simp

theorem read_register_eq_error_iff :
    register.read token = .error (.expectedRegister token)
      ↔ ¬ ∃ word, Numeral.unsigned? token.toList = some word := by
  rw [read]
  cases Numeral.unsigned? token.toList <;> simp

end OperandKind

theorem Decoder.slot_of_scan {operands : Operands} {token : String} {after : Scanner}
    (hnext : operands.scanner.scan = (some token, after)) (kind : OperandKind) :
    slot kind operands = (kind.read token, { operands with scanner := after }) := by
  have htoken : Decoder.token operands = (.ok token, { operands with scanner := after }) := by
    rw [Decoder.token, hnext]
  rw [slot, bind_ok htoken]
  cases kind.read token <;> rfl

open Numeral in
/-- An operand is read exactly if its token is a numeral in range, and what is read is the value of
the numeral; otherwise the complaint shows the token. A word is read back from its decimal text. -/
theorem read_iff_numeral (token : String) :
    (∀ v : Int,
      (∃ word : Int64, OperandKind.integer.read token = .ok (.integer word) ∧ word.toInt = v)
        ↔ Signed token.toList v ∧ -2 ^ 63 ≤ v ∧ v < 2 ^ 63)
    ∧ (OperandKind.integer.read token = .error (.expectedInteger token)
        ↔ ¬ ∃ v, Signed token.toList v ∧ -2 ^ 63 ≤ v ∧ v < 2 ^ 63)
    ∧ (∀ n : Nat,
      (∃ word : UInt64, OperandKind.register.read token = .ok (.register word) ∧ word.toNat = n)
        ↔ Unsigned token.toList n ∧ n < 2 ^ 64)
    ∧ (OperandKind.register.read token = .error (.expectedRegister token)
        ↔ ¬ ∃ n, Unsigned token.toList n ∧ n < 2 ^ 64)
    ∧ (∀ (zeros : Nat) (c : Char) (digits : List Char) (n : Nat),
      Digits (List.replicate zeros '0' ++ c :: digits) n ↔ Digits (c :: digits) n)
    ∧ (∀ word : Int64, OperandKind.integer.read (ofInt word.toInt) = .ok (.integer word))
    ∧ (∀ word : UInt64, OperandKind.register.read (ofNat word.toNat) = .ok (.register word))
    ∧ ∀ (operands : Operands) (after : Scanner), operands.scanner.scan = (some token, after) →
      Decoder.view OperandValue.integer Decoder.integer operands
          = (OperandKind.integer.read token, { operands with scanner := after })
        ∧ Decoder.view OperandValue.register Decoder.register operands
          = (OperandKind.register.read token, { operands with scanner := after }) := by
  refine ⟨fun v => ?_, ?_, fun n => ?_, ?_, fun zeros c digits n => digits_zeros_iff zeros c,
    OperandKind.read_integer_ofInt, OperandKind.read_register_ofNat, fun operands after hnext => ?_⟩
  · simp only [OperandKind.read_integer_eq_ok_iff, exists_signed?_iff]
  · simp only [OperandKind.read_integer_eq_error_iff, ← exists_signed?_iff]
    exact not_congr ⟨fun ⟨word, h⟩ => ⟨_, word, h, rfl⟩, fun ⟨_, word, h, _⟩ => ⟨word, h⟩⟩
  · simp only [OperandKind.read_register_eq_ok_iff, exists_unsigned?_iff]
  · simp only [OperandKind.read_register_eq_error_iff, ← exists_unsigned?_iff]
    exact not_congr ⟨fun ⟨word, h⟩ => ⟨_, word, h, rfl⟩, fun ⟨_, word, h, _⟩ => ⟨word, h⟩⟩
  · rw [← Decoder.slot_integer, ← Decoder.slot_register]
    exact ⟨Decoder.slot_of_scan hnext _, Decoder.slot_of_scan hnext _⟩

/-- The least word, with zeros after its sign. One more is out of range, and a minus is no part of a
register. -/
theorem read_iff_numeral_leastWord :
    let token := "-0009223372036854775808"
    let operands : Operands := ⟨.ofLine " -0009223372036854775808\tx\r\n", "lin"⟩
    let left : Operands := ⟨⟨['\t', 'x']⟩, "lin"⟩
    Decoder.view OperandValue.integer Decoder.integer operands
        = (.ok (.integer Int64.minValue), left)
      ∧ Decoder.view OperandValue.register Decoder.register operands
        = (.error (.expectedRegister token), left)
      ∧ Numeral.Signed token.toList (-2 ^ 63)
      ∧ OperandKind.integer.read "-9223372036854775809"
        = .error (.expectedInteger "-9223372036854775809") := by
  intro token operands left
  have hscan : operands.scanner.scan = (some token, ⟨['\t', 'x']⟩) := by decide +kernel
  have hread : OperandKind.integer.read token = .ok (.integer Int64.minValue) := by decide +kernel
  have hrefused : OperandKind.register.read token = .error (.expectedRegister token) := by
    decide +kernel
  obtain ⟨hinteger, -, -, -, -, -, -, hcursor⟩ := read_iff_numeral token
  obtain ⟨hsigned, hunsigned⟩ := hcursor operands _ hscan
  rw [hread] at hsigned
  rw [hrefused] at hunsigned
  exact ⟨hsigned, hunsigned, ((hinteger _).1 ⟨_, hread, Int64.toInt_minValue⟩).1, by decide +kernel⟩

end RegisterMachine
