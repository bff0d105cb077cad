import RegisterMachine.Text.Numeral

/-!
# What can go wrong

Every fault of reading, assembling or running a program, as its cause, and the
sentence that reports it. A fault that a source line causes is printed on the
console and the line is left out; the others end the assembly or the run.
-/

namespace RegisterMachine

/-- The cause of a fault. -/
inductive Error
  /-- The source could not be opened or read. -/
  | io (text : String)
  /-- No instruction goes by this name. -/
  | unknownInstruction (name : String)
  /-- The line ended before every operand was given. -/
  | missingOperand (instruction : String)
  /-- Something was left on the line after the last operand. -/
  | extraOperand (instruction extra : String)
  /-- The operand is not a signed numeral in range. -/
  | expectedInteger (token : String)
  /-- The operand is not an unsigned numeral in range. -/
  | expectedRegister (token : String)
  /-- An earlier instruction bears the same label. -/
  | duplicateLabel (label : String)
  /-- A branch was taken to a label that is bound nowhere. -/
  | undefinedLabel (label : String)
  /-- The register file has no such register. -/
  | registerOutOfBounds (index : UInt64) (available : Nat)
  /-- The divisor was zero. -/
  | divisionByZero
  /-- The machine cannot be built as asked. -/
  | configuration (text : String)
  deriving DecidableEq, Repr, Inhabited

namespace Error

/-- The sentence that reports a fault. -/
def message : Error → String
  | io text => "io error: " ++ text
  | unknownInstruction name => "Unknown instruction " ++ name
  | missingOperand instruction => "Too few operands for " ++ instruction
  | extraOperand instruction extra =>
    "Too many operands for " ++ instruction ++ ", unexpected " ++ extra
  | expectedInteger token => "Expected integer, found " ++ token
  | expectedRegister token => "Expected register index, found " ++ token
  | duplicateLabel label => "Duplicate label " ++ label
  | undefinedLabel label => "undefined label: " ++ label
  | registerOutOfBounds index available =>
    "register index " ++ Numeral.ofNat index.toNat ++ " out of bounds ("
      ++ Numeral.ofNat available ++ " registers)"
  | divisionByZero => "Division by zero"
  | configuration text => "invalid configuration: " ++ text

/-- The fault of a byte stream that is not text. -/
def invalidText : Error :=
  io "stream did not contain valid UTF-8"

/-- The fault of a machine without registers. -/
def noRegisters : Error :=
  configuration "register count must be greater than 0"

/-- The fault of a register count that is no positive numeral; the text is quoted as it was given,
blanks included. -/
def invalidRegisterCount (text : String) : Error :=
  configuration ("invalid register count '" ++ text ++ "'")

end Error

end RegisterMachine
