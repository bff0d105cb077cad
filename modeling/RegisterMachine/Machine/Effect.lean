import RegisterMachine.Instruction.Basic
import RegisterMachine.LabelTable
import RegisterMachine.RegisterFile

/-!
# What an operation comes to

Executing an instruction has two halves. The first only looks: it reads the
operands and the label table, in a fixed order, and either meets a fault or
settles on one effect. The second carries the effect out and cannot fail. So a
fault finds the machine as it was, whatever came before it.

The order is that of reading first and writing last. An operand is looked at
before the register for the result, and a division by zero is noticed before
the result has been looked at at all.
-/

namespace RegisterMachine

/-- The one thing that a successful instruction does, besides being counted. -/
inductive Effect
  /-- A register that exists takes a value. -/
  | store (register : UInt64) (value : Int64)
  /-- A value is printed. -/
  | print (value : Int64)
  /-- A fault is reported, and that is all. -/
  | report (error : Error)
  /-- Execution goes on at an index. -/
  | jump (index : Nat)
  /-- Nothing happens. -/
  | pass
  deriving DecidableEq, Repr, Inhabited

/-- The effect of an operation on given registers, with branches resolved by the given table. -/
def Operation.effect (registers : RegisterFile) (labels : LabelTable) :
    Operation → Except Error Effect
  | .load register value => do
    registers.check register
    return .store register value
  | .arith op result op1 op2 => do
    let a ← registers.get op1
    let b ← registers.get op2
    match op.eval? a b with
    | none => return .report .divisionByZero
    | some value =>
      registers.check result
      return .store result value
  | .print register => do
    let value ← registers.get register
    return .print value
  | .branch register target => do
    let value ← registers.get register
    if value = 0 then return .pass
    let index ← labels.resolve target
    return .jump index

end RegisterMachine
