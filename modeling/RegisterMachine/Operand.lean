import RegisterMachine.Error
import RegisterMachine.Scanner

/-!
# Operands

What stands after the mnemonic on a line, and how it is read. Operands are read
from left to right, each by the rule of its kind. A token is used up by reading
it, whether or not it turns out to be what was expected, and a line that has run
out of tokens is the same fault for every kind.

A `Decoder` is such a reading. It sees the rest of the line and the mnemonic
that its faults are to name, and nothing else.
-/

namespace RegisterMachine

/-- The kinds of operand. -/
inductive OperandKind
  /-- The index of a register. -/
  | register
  /-- A signed numeral. -/
  | integer
  /-- The name of a place in the program, looked up when the instruction runs. -/
  | label
  deriving DecidableEq, Repr, Inhabited

/-- The name of a kind. -/
def OperandKind.name : OperandKind → String
  | register => "Register"
  | integer => "Integer"
  | label => "Label"

/-- The operands of a line that are still to be read. -/
structure Operands where
  scanner : Scanner
  /-- The mnemonic that faults name. -/
  instruction : String
  deriving DecidableEq, Repr, Inhabited

/-- A reading of operands: an answer or a fault, and the operands that are left either way. -/
def Decoder (α : Type) : Type :=
  Operands → Except Error α × Operands

namespace Decoder

/-- A reading that goes on with the answer of another; a fault ends it. -/
protected def bind {α β : Type} (decoder : Decoder α) (next : α → Decoder β) : Decoder β :=
  fun operands =>
    match decoder operands with
    | (.ok answer, left) => next answer left
    | (.error fault, left) => (.error fault, left)

instance : Monad Decoder where
  pure answer := fun operands => (.ok answer, operands)
  bind := Decoder.bind

/-- Reads nothing and fails. -/
def fail {α : Type} (fault : Error) : Decoder α :=
  fun operands => (.error fault, operands)

/-- The mnemonic of the line. -/
def instruction : Decoder String :=
  fun operands => (.ok operands.instruction, operands)

/-- Takes the next token as it is. -/
def token : Decoder String :=
  fun operands =>
    match operands.scanner.scan with
    | (some token, after) => (.ok token, { operands with scanner := after })
    | (none, after) =>
      (.error (.missingOperand operands.instruction), { operands with scanner := after })

/-- Answers with a value, or fails when there is none. -/
def ofOption {α : Type} (fault : Error) : Option α → Decoder α
  | some answer => pure answer
  | none => fail fault

/-- Reads the index of a register. -/
def register : Decoder UInt64 := do
  let token ← token
  ofOption (.expectedRegister token) (Numeral.unsigned? token.toList)

/-- Reads a signed numeral. -/
def integer : Decoder Int64 := do
  let token ← token
  ofOption (.expectedInteger token) (Numeral.signed? token.toList)

/-- Reads the name of a label. Any token is one. -/
def label : Decoder String :=
  token

theorem bind_ok {α β : Type} {decoder : Decoder α} {next : α → Decoder β}
    {operands left : Operands} {answer : α} (h : decoder operands = (.ok answer, left)) :
    (decoder >>= next) operands = next answer left := by
  simp only [bind, Decoder.bind, h]

theorem bind_error {α β : Type} {decoder : Decoder α} {next : α → Decoder β}
    {operands left : Operands} {fault : Error} (h : decoder operands = (.error fault, left)) :
    (decoder >>= next) operands = (.error fault, left) := by
  simp only [bind, Decoder.bind, h]

end Decoder

end RegisterMachine
