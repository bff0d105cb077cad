/-!
# Decimal numerals

Reading and writing whole numbers in decimal. A numeral is a nonempty run of
ASCII digits, with any number of leading zeros, and at most one sign before it.
The digits may go on for as long as they like: the value is found first, and
only then is it held against the range of a machine word.

The two laws at the end say that reading undoes writing, for every number of
either range.
-/

namespace RegisterMachine.Numeral

/-- The number that a nonempty run of decimal digits stands for. -/
def natural? (digits : List Char) : Option Nat :=
  if digits ≠ [] ∧ digits.all Char.isDigit then some (Nat.ofDigitChars 10 digits 0) else none

/-- The number that a numeral stands for when it may start with either sign. -/
def integer? : List Char → Option Int
  | '-' :: digits => (natural? digits).map fun n => -(n : Int)
  | '+' :: digits => (natural? digits).map Int.ofNat
  | digits => (natural? digits).map Int.ofNat

/-- The number that a numeral stands for when the only sign it may have is a plus. -/
def cardinal? : List Char → Option Nat
  | '+' :: digits => natural? digits
  | digits => natural? digits

/-- Reads a signed word: a numeral whose value fits into sixty-four bits in two's complement. -/
def signed? (text : List Char) : Option Int64 := do
  let value ← integer? text
  if Int64.minValue.toInt ≤ value ∧ value ≤ Int64.maxValue.toInt then some (Int64.ofInt value)
  else none

/-- Reads an unsigned word: a numeral without a minus whose value fits into sixty-four bits. -/
def unsigned? (text : List Char) : Option UInt64 := do
  let value ← cardinal? text
  if value < UInt64.size then some (UInt64.ofNat value) else none

/-- Writes a number in decimal, with no leading zero. -/
def ofNat (n : Nat) : String :=
  String.ofList (Nat.toDigits 10 n)

/-- Writes a number in decimal, with a minus in front when it is negative. -/
def ofInt : Int → String
  | .ofNat n => ofNat n
  | .negSucc n => "-" ++ ofNat (n + 1)

theorem toList_ofNat (n : Nat) : (ofNat n).toList = Nat.toDigits 10 n :=
  String.toList_ofList

theorem isDigit_of_mem_ofNat {n : Nat} {c : Char} (h : c ∈ (ofNat n).toList) :
    c.isDigit = true :=
  Nat.isDigit_of_mem_toDigits (by decide) (by decide) (toList_ofNat n ▸ h)

theorem natural?_ofNat (n : Nat) : natural? (ofNat n).toList = some n := by
  have hall : (ofNat n).toList.all Char.isDigit = true :=
    List.all_eq_true.2 fun _ => isDigit_of_mem_ofNat
  have hnonempty : (ofNat n).toList ≠ [] := by
    rw [toList_ofNat]
    exact Nat.toDigits_ne_nil
  rw [natural?, if_pos ⟨hnonempty, hall⟩, toList_ofNat,
    Nat.ofDigitChars_toDigits (by decide) (by decide)]

/-- A written number starts with a digit, so it is read as unsigned digits. -/
theorem ofNat_eq_digit_cons (n : Nat) :
    ∃ c rest, (ofNat n).toList = c :: rest ∧ c.isDigit = true := by
  cases h : (ofNat n).toList with
  | nil => exact absurd (toList_ofNat n ▸ h) Nat.toDigits_ne_nil
  | cons c rest =>
      have hfirst : c ∈ (ofNat n).toList := h ▸ List.mem_cons_self
      exact ⟨c, rest, rfl, isDigit_of_mem_ofNat hfirst⟩

theorem cardinal?_ofNat (n : Nat) : cardinal? (ofNat n).toList = some n := by
  obtain ⟨c, rest, h, hdigit⟩ := ofNat_eq_digit_cons n
  have hplain : cardinal? (ofNat n).toList = natural? (ofNat n).toList := by
    rw [h]
    unfold cardinal?
    split
    · next heq => injection heq with hc; subst hc; simp at hdigit
    · rfl
  rw [hplain, natural?_ofNat]

theorem integer?_ofInt (v : Int) : integer? (ofInt v).toList = some v := by
  cases v with
  | ofNat n =>
      obtain ⟨c, rest, h, hdigit⟩ := ofNat_eq_digit_cons n
      have hplain : integer? (ofNat n).toList = (natural? (ofNat n).toList).map Int.ofNat := by
        rw [h]
        unfold integer?
        split
        · next heq => injection heq with hc; subst hc; simp at hdigit
        · next heq => injection heq with hc; subst hc; simp at hdigit
        · rfl
      rw [ofInt, hplain, natural?_ofNat]
      rfl
  | negSucc n =>
      have hminus : (ofInt (.negSucc n)).toList = '-' :: (ofNat (n + 1)).toList := by
        simp [ofInt, String.toList_append]
      rw [hminus, integer?, natural?_ofNat]
      rfl

/-- Every unsigned word is read back from its decimal text. -/
theorem unsigned?_ofNat (n : UInt64) : unsigned? (ofNat n.toNat).toList = some n := by
  simp only [unsigned?, cardinal?_ofNat, Option.bind_eq_bind, Option.bind_some]
  rw [if_pos n.toNat_lt_size, UInt64.ofNat_toNat]

/-- Every signed word is read back from its decimal text. -/
theorem signed?_ofInt (v : Int64) : signed? (ofInt v.toInt).toList = some v := by
  simp only [signed?, integer?_ofInt, Option.bind_eq_bind, Option.bind_some]
  rw [if_pos ⟨v.minValue_le_toInt, v.toInt_le⟩, Int64.ofInt_toInt]

end RegisterMachine.Numeral
