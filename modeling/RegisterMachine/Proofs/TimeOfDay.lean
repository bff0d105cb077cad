import Mathlib.Data.List.Forall2
import RegisterMachine.Log.Clock
import RegisterMachine.Proofs.Numerals

/-!
# The time of day can be read back

A moment is shown by four numbers, and each of them has a field of its own, as wide as
the greatest number that can stand in it. So nothing but the digits is needed to read
it back: every field is filled (`length_digits`), zeros in front do not change what a
row of digits stands for (`natural?_digits`), and the marks between the fields stand at
the same places in every text.

That the four numbers are the right ones is arithmetic. They are one number with the
parts of a day for its places, `inMillis`, and that number is what is left of the
moment after whole days, as long as its seconds can be counted in sixty-four bits.
-/

namespace RegisterMachine.Log

/-- A time of day, to the millisecond. -/
structure TimeOfDay where
  hour : Fin 24
  minute : Fin 60
  second : Fin 60
  millisecond : Fin 1000
  deriving DecidableEq

namespace TimeOfDay

/-- The milliseconds since midnight. -/
def inMillis (time : TimeOfDay) : Nat :=
  ((time.hour * 60 + time.minute) * 60 + time.second) * 1000 + time.millisecond

/-- The time at so many milliseconds since 1970, whose seconds are counted in sixty-four bits. -/
def ofMillis (millis : Nat) : TimeOfDay :=
  let seconds := millis / 1000 % UInt64.size
  { hour := Fin.ofNat 24 (seconds / 3600)
    minute := Fin.ofNat 60 (seconds / 60)
    second := Fin.ofNat 60 seconds
    millisecond := Fin.ofNat 1000 millis }

/-- The time that a text shows, if it has the shape of a time. -/
def ofText? (text : String) : Option TimeOfDay :=
  match text.toList with
  | [h₁, h₂, ':', m₁, m₂, ':', s₁, s₂, '.', t₁, t₂, t₃] => do
    let hour ← Numeral.natural? [h₁, h₂]
    let minute ← Numeral.natural? [m₁, m₂]
    let second ← Numeral.natural? [s₁, s₂]
    let millisecond ← Numeral.natural? [t₁, t₂, t₃]
    if hfits : hour < 24 ∧ minute < 60 ∧ second < 60 ∧ millisecond < 1000 then
      some ⟨⟨hour, hfits.1⟩, ⟨minute, hfits.2.1⟩, ⟨second, hfits.2.2.1⟩, ⟨millisecond, hfits.2.2.2⟩⟩
    else none
  | _ => none

/-- The text that shows a time. -/
def text (time : TimeOfDay) : String :=
  digits 2 time.hour ++ ":" ++ digits 2 time.minute ++ ":" ++ digits 2 time.second ++ "."
    ++ digits 3 time.millisecond

end TimeOfDay

/-- A text has a shape: where the shape has a `D` there is some digit, and everywhere else there is
the character of the shape. -/
def Shaped (shape text : String) : Prop :=
  List.Forall₂ (fun mark c => if mark = 'D' then c.isDigit = true else c = mark) shape.toList
    text.toList

/-! ## Fields -/

theorem toList_digits (width n : Nat) :
    (digits width n).toList
      = List.replicate (width - (Numeral.ofNat n).length) '0' ++ (Numeral.ofNat n).toList := by
  rw [digits, Text.padZero, Text.fill, String.toList_append, String.toList_ofList]

theorem length_digits {width n : Nat} (hwidth : 0 < width) (h : n < 10 ^ width) :
    (digits width n).toList.length = width := by
  have hlength : (Numeral.ofNat n).length ≤ width := by
    rw [← String.length_toList, Numeral.toList_ofNat]
    exact (Nat.length_toDigits_le_iff (by decide) hwidth).2 h
  rw [String.length_toList, digits, Text.length_padZero]
  omega

theorem digits_digits (width n : Nat) : Numeral.Digits (digits width n).toList n := by
  have hvalue : Numeral.Digits (Numeral.ofNat n).toList n :=
    Numeral.natural?_eq_some_iff.1 (Numeral.natural?_ofNat n)
  obtain ⟨c, rest, hcons, -⟩ := Numeral.ofNat_eq_digit_cons n
  rw [toList_digits, hcons, Numeral.digits_zeros_iff, ← hcons]
  exact hvalue

theorem digits_two {n : Nat} (h : n < 100) :
    ∃ a b, (digits 2 n).toList = [a, b] ∧ Numeral.Digits [a, b] n := by
  obtain ⟨a, b, htext⟩ := List.length_eq_two.1 (length_digits (by decide) h)
  exact ⟨a, b, htext, htext ▸ digits_digits 2 n⟩

theorem digits_three {n : Nat} (h : n < 1000) :
    ∃ a b c, (digits 3 n).toList = [a, b, c] ∧ Numeral.Digits [a, b, c] n := by
  obtain ⟨a, b, c, htext⟩ := List.length_eq_three.1 (length_digits (by decide) h)
  exact ⟨a, b, c, htext, htext ▸ digits_digits 3 n⟩

namespace TimeOfDay

theorem exists_toList_text (time : TimeOfDay) :
    ∃ h₁ h₂ m₁ m₂ s₁ s₂ t₁ t₂ t₃,
      time.text.toList = [h₁, h₂, ':', m₁, m₂, ':', s₁, s₂, '.', t₁, t₂, t₃]
        ∧ Numeral.Digits [h₁, h₂] time.hour ∧ Numeral.Digits [m₁, m₂] time.minute
        ∧ Numeral.Digits [s₁, s₂] time.second ∧ Numeral.Digits [t₁, t₂, t₃] time.millisecond := by
  obtain ⟨h₁, h₂, hhour, hh⟩ := digits_two (n := time.hour) (by omega)
  obtain ⟨m₁, m₂, hminute, hm⟩ := digits_two (n := time.minute) (by omega)
  obtain ⟨s₁, s₂, hsecond, hs⟩ := digits_two (n := time.second) (by omega)
  obtain ⟨t₁, t₂, t₃, hmillisecond, ht⟩ := digits_three (n := time.millisecond) (by omega)
  refine ⟨h₁, h₂, m₁, m₂, s₁, s₂, t₁, t₂, t₃, ?_, hh, hm, hs, ht⟩
  simp only [text, String.toList_append, hhour, hminute, hsecond, hmillisecond]
  rfl

theorem shaped_text (time : TimeOfDay) : Shaped "DD:DD:DD.DDD" time.text := by
  obtain ⟨h₁, h₂, m₁, m₂, s₁, s₂, t₁, t₂, t₃, htext, hh, hm, hs, ht⟩ := time.exists_toList_text
  have hdigits := hh.isDigit_of_mem
  have := hm.isDigit_of_mem
  have := hs.isDigit_of_mem
  have := ht.isDigit_of_mem
  rw [Shaped, htext]
  simp_all

theorem ofText?_text (time : TimeOfDay) : ofText? time.text = some time := by
  obtain ⟨h₁, h₂, m₁, m₂, s₁, s₂, t₁, t₂, t₃, htext, hh, hm, hs, ht⟩ := time.exists_toList_text
  rw [← Numeral.natural?_eq_some_iff] at hh hm hs ht
  rw [ofText?, htext]
  simp [hh, hm, hs, ht]

theorem inMillis_ofMillis {millis : Nat} (h : millis < 1000 * 2 ^ 64) :
    (ofMillis millis).inMillis = millis % 86400000 := by
  have hseconds : millis / 1000 % UInt64.size = millis / 1000 :=
    Nat.mod_eq_of_lt (by rw [UInt64.size]; omega)
  simp only [ofMillis, hseconds, inMillis, Fin.ofNat]
  omega

theorem inMillis_injective {a b : TimeOfDay} (h : a.inMillis = b.inMillis) : a = b := by
  obtain ⟨⟨_, _⟩, ⟨_, _⟩, ⟨_, _⟩, ⟨_, _⟩⟩ := a
  obtain ⟨⟨_, _⟩, ⟨_, _⟩, ⟨_, _⟩, ⟨_, _⟩⟩ := b
  simp only [inMillis] at h
  simp only [mk.injEq, Fin.mk.injEq]
  omega

end TimeOfDay

theorem timeOfDay_eq (millis : Nat) : timeOfDay millis = (TimeOfDay.ofMillis millis).text := by
  rfl

/-- The text of a moment can be read back as a time of day: its milliseconds, and its seconds as far
as they are counted. Until the count starts again, what is read back is what is left of the moment
after whole days, and moments with the same text are whole days apart. -/
theorem timeOfDay_reads_back (millis : Nat) :
    Shaped "DD:DD:DD.DDD" (timeOfDay millis)
    ∧ (∃ time, TimeOfDay.ofText? (timeOfDay millis) = some time
      ∧ time.millisecond.val = millis % 1000
      ∧ (time.hour.val * 60 + time.minute.val) * 60 + time.second.val
        = millis / 1000 % 2 ^ 64 % 86400)
    ∧ (millis < 1000 * 2 ^ 64 →
      (TimeOfDay.ofText? (timeOfDay millis)).map TimeOfDay.inMillis = some (millis % 86400000)
      ∧ ∀ other < 1000 * 2 ^ 64,
        timeOfDay millis = timeOfDay other ↔ millis % 86400000 = other % 86400000) := by
  have hread : ∀ millis, TimeOfDay.ofText? (timeOfDay millis) = some (.ofMillis millis) :=
    fun millis => (TimeOfDay.ofMillis millis).ofText?_text
  refine ⟨(TimeOfDay.ofMillis millis).shaped_text, ⟨_, hread millis, rfl, ?_⟩, fun h => ⟨?_, ?_⟩⟩
  · simp only [TimeOfDay.ofMillis, Fin.ofNat, UInt64.size]
    omega
  · rw [hread, Option.map_some, TimeOfDay.inMillis_ofMillis h]
  · intro other hother
    rw [← TimeOfDay.inMillis_ofMillis h, ← TimeOfDay.inMillis_ofMillis hother]
    constructor
    · intro htext
      have htimes := hread other
      rw [← htext, hread millis] at htimes
      exact congrArg TimeOfDay.inMillis (Option.some.inj htimes)
    · intro hmillis
      rw [timeOfDay_eq, timeOfDay_eq, TimeOfDay.inMillis_injective hmillis]

/-- The last moment before the count of the seconds starts again. -/
theorem timeOfDay_reads_back_lastCounted :
    timeOfDay 18446744073709551615999 = "07:00:15.999"
      ∧ (TimeOfDay.ofText? "07:00:15.999").map TimeOfDay.inMillis = some 25215999
      ∧ timeOfDay 25215999 = "07:00:15.999" := by
  obtain ⟨-, -, hcounted⟩ := timeOfDay_reads_back 18446744073709551615999
  obtain ⟨hmillis, hsame⟩ := hcounted (by decide)
  have htext : timeOfDay 18446744073709551615999 = "07:00:15.999" := by decide +kernel
  rw [htext] at hmillis
  exact ⟨htext, hmillis, ((hsame 25215999 (by decide)).2 (by decide)).symm.trans htext⟩

/-- One millisecond later it is midnight. -/
example : timeOfDay 18446744073709551616000 = "00:00:00.000" := by
  decide +kernel

end RegisterMachine.Log
