import RegisterMachine.Text.Numeral
import RegisterMachine.Text.Pad

/-!
# The time of day

A log line may start with the time at which it was written, in UTC, to the
millisecond. The number of milliseconds is exact, but the whole seconds are
counted in sixty-four bits, so a time that lies far enough in the future starts
again at midnight of the first day.
-/

namespace RegisterMachine.Log

/-- The digits of a number, with zeros in front up to the given width. -/
def digits (width n : Nat) : String :=
  Text.padZero width (Numeral.ofNat n)

/-- The hour, minute, second and millisecond of a moment given in milliseconds since 1970. -/
def timeOfDay (millis : Nat) : String :=
  let seconds := millis / 1000 % UInt64.size
  digits 2 (seconds / 3600 % 24) ++ ":" ++ digits 2 (seconds / 60 % 60) ++ ":"
    ++ digits 2 (seconds % 60) ++ "." ++ digits 3 (millis % 1000)

end RegisterMachine.Log
