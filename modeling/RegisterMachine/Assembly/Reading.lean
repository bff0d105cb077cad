import RegisterMachine.Vocabulary

/-!
# Reading one line

A line has the shape

    [label] mnemonic operand*

and the first token is the label, except when it is a known mnemonic and the
second token is not; then the line bears no label. So a label may well be
spelled like a mnemonic, as long as a mnemonic follows it.

A line without tokens says nothing, and one with a label alone is passed over.
Every other line makes an instruction or is rejected for one reason, the first
that reading it from left to right brings up. A rejected line goes by its label
or, when it has none, by its number.
-/

namespace RegisterMachine

/-- What a line of source turned out to be. -/
inductive Reading
  /-- There is nothing on the line. -/
  | blank
  /-- There is a label on the line and nothing else. -/
  | labelOnly (label : String)
  | instruction (instruction : Instruction)
  /-- The line is no instruction; the reference is what to call it by. -/
  | rejected (error : Error) (reference : String)
  deriving DecidableEq, Repr, Inhabited

/-- Reads an instruction from the operands on a line. -/
def Mnemonic.decode (mnemonic : Mnemonic) (label : String) (scanner : Scanner) :
    Except Error Instruction × Operands :=
  mnemonic.format label { scanner, instruction := mnemonic.spelling }

namespace Vocabulary

/-- Reads an instruction from a mnemonic, as spelled on its line, and what follows it. Nothing may
be left over. -/
def decode (vocabulary : Vocabulary) (label name : String) (scanner : Scanner) :
    Except Error Instruction := do
  let mnemonic ← vocabulary.lookup name
  let (answer, left) := mnemonic.decode label scanner
  let instruction ← answer
  match left.scanner.peek with
  | some extra => .error (.extraOperand mnemonic.spelling extra)
  | none => return instruction

/-- Reads what follows a mnemonic; a rejected line goes by the given reference. -/
def readOperands (vocabulary : Vocabulary) (label name : String) (scanner : Scanner)
    (reference : String) : Reading :=
  match vocabulary.decode label name scanner with
  | .ok instruction => .instruction instruction
  | .error error => .rejected error reference

/-- Whether a line that starts with this token has no label, when this is what may follow it. -/
def startsUnlabeled (vocabulary : Vocabulary) (first : String) (second : Option String) : Bool :=
  vocabulary.contains first && !second.any vocabulary.contains

/-- Reads the line with the given number. -/
def readLine (vocabulary : Vocabulary) (number : Nat) (line : String) : Reading :=
  match (Scanner.ofLine line).scan with
  | (none, _) => .blank
  | (some first, afterFirst) =>
    if vocabulary.startsUnlabeled first afterFirst.peek then
      vocabulary.readOperands "" first afterFirst (Numeral.ofNat number)
    else
      match afterFirst.scan with
      | (none, _) => .labelOnly first
      | (some name, afterName) => vocabulary.readOperands first name afterName first

end Vocabulary

end RegisterMachine
