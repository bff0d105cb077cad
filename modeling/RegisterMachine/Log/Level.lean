import RegisterMachine.Text.Pad

/-!
# Log levels

How much attention a log line asks for. Levels are ordered by their number, and
a name can be set into a field of any width.
-/

namespace RegisterMachine.Log

/-- The weight of a log line. -/
inductive Level
  | info
  | warn
  | error
  deriving DecidableEq, Repr, Inhabited

namespace Level

/-- The rank of a level: the graver, the higher. -/
def number : Level → Nat
  | info => 1
  | warn => 2
  | error => 3

/-- Levels compare as their ranks do. -/
instance : Ord Level where
  compare a b := compare a.number b.number

/-- The name that stands between the brackets of a log line. -/
def name : Level → String
  | info => "INFO"
  | warn => "WARN"
  | error => "ERROR"

/-- The name cut to a number of characters and set into a field of a given width. -/
def field (alignment : Text.Alignment) (width precision : Nat) (level : Level) : String :=
  Text.pad alignment width (Text.cut precision level.name)

theorem number_injective {a b : Level} (h : a.number = b.number) : a = b := by
  cases a <;> cases b <;> simp_all [number]

end Level

end RegisterMachine.Log
