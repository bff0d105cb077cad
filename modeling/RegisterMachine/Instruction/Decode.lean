import RegisterMachine.Instruction.Basic

/-!
# Decoding instructions

How the operands of each instruction of the catalog are read, one after the
other. What is left on the line afterwards is for the caller to judge.
-/

namespace RegisterMachine

/-- The format of an instruction: how it is made of its label and the operands on its line. -/
abbrev InstructionFormat : Type :=
  String → Decoder Instruction

/-- Reads the operands of an instruction, one for each of its kinds. -/
def Opcode.decode : Opcode → Decoder Operation
  | .lin => do
    let register ← Decoder.register
    let value ← Decoder.integer
    return .load register value
  | .arith op => do
    let result ← Decoder.register
    let op1 ← Decoder.register
    let op2 ← Decoder.register
    return .arith op result op1 op2
  | .out => do
    let register ← Decoder.register
    return .print register
  | .bnz => do
    let register ← Decoder.register
    let target ← Decoder.label
    return .branch register target

/-- The format of an instruction of the catalog: it keeps the label that it is given. -/
def Opcode.format (opcode : Opcode) : InstructionFormat :=
  fun label => do
    let operation ← opcode.decode
    return { label, operation }

end RegisterMachine
