import RegisterMachine.Text.Numeral
import RegisterMachine.Operand

/-!
# Instructions

An instruction is an operation together with the label that its line bore, the
empty text when it bore none. There are four shapes of operation: load a
literal into a register, combine two registers into a third, print a register,
and branch when a register is not zero. A branch names its target; where that
is, the label table decides at the moment the branch is taken.

The description of an instruction is its source line again, except for a colon
after the label.
-/

namespace RegisterMachine

/-- The four operations of arithmetic. -/
inductive Arithmetic
  | add
  | sub
  | mul
  | div
  deriving DecidableEq, Repr, Inhabited

/-- The result of an operation on words. Sums, differences and products wrap around, quotients
round toward zero, and the one quotient that does not fit wraps around too. Division by zero has no
result. -/
def Arithmetic.eval? : Arithmetic → Int64 → Int64 → Option Int64
  | add, a, b => some (a + b)
  | sub, a, b => some (a - b)
  | mul, a, b => some (a * b)
  | div, a, b => if b = 0 then none else some (a / b)

/-- What an instruction does. -/
inductive Operation
  /-- Puts a literal into a register. -/
  | load (register : UInt64) (value : Int64)
  /-- Combines two registers and puts the result into a third. -/
  | arith (op : Arithmetic) (result op1 op2 : UInt64)
  /-- Prints a register. -/
  | print (register : UInt64)
  /-- Goes on at a label when a register is not zero. -/
  | branch (register : UInt64) (target : String)
  deriving DecidableEq, Repr, Inhabited

/-- The kinds of instruction that the language knows. -/
inductive Opcode
  | lin
  | arith (op : Arithmetic)
  | out
  | bnz
  deriving DecidableEq, Repr, Inhabited

namespace Opcode

/-- Every opcode, in the order of the catalog. -/
def all : List Opcode :=
  [lin, arith .add, arith .sub, arith .mul, arith .div, out, bnz]

/-- The name of an instruction in source. -/
def mnemonic : Opcode → String
  | lin => "lin"
  | arith .add => "add"
  | arith .sub => "sub"
  | arith .mul => "mul"
  | arith .div => "div"
  | out => "out"
  | bnz => "bnz"

/-- The kinds of the operands, in the order of the source. -/
def kinds : Opcode → List OperandKind
  | lin => [.register, .integer]
  | arith _ => [.register, .register, .register]
  | out => [.register]
  | bnz => [.register, .label]

theorem mem_all (opcode : Opcode) : opcode ∈ all := by
  rcases opcode with _ | op | _ | _
  · decide
  · cases op <;> decide
  · decide
  · decide

end Opcode

namespace Operation

/-- Which instruction of the catalog an operation belongs to. -/
def opcode : Operation → Opcode
  | load .. => .lin
  | arith op .. => .arith op
  | print .. => .out
  | branch .. => .bnz

/-- The operands as they are written in source. -/
def operands : Operation → List String
  | load register value => [Numeral.ofNat register.toNat, Numeral.ofInt value.toInt]
  | arith _ result op1 op2 =>
    [Numeral.ofNat result.toNat, Numeral.ofNat op1.toNat, Numeral.ofNat op2.toNat]
  | print register => [Numeral.ofNat register.toNat]
  | branch register target => [Numeral.ofNat register.toNat, target]

/-- The mnemonic and the operands, with a space between any two. -/
def text (operation : Operation) : String :=
  operation.opcode.mnemonic ++ String.join (operation.operands.map (" " ++ ·))

theorem length_operands (operation : Operation) :
    operation.operands.length = operation.opcode.kinds.length := by
  cases operation <;> rfl

end Operation

/-- An operation and the label that it was written under. -/
structure Instruction where
  /-- The label, empty when there is none. -/
  label : String
  operation : Operation
  deriving DecidableEq, Repr, Inhabited

/-- The instruction as listings show it: the label and a colon, if it has one, and the operation. -/
def Instruction.description (instruction : Instruction) : String :=
  if instruction.label = "" then instruction.operation.text
  else instruction.label ++ ": " ++ instruction.operation.text

end RegisterMachine
