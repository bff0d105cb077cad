import RegisterMachine.Instruction.Basic
import RegisterMachine.LabelTable
import RegisterMachine.Text.Pad

/-!
# Programs

What assembly makes and the machine runs: instructions in a row, and the
table that says which label stands for which of them. Pushing an instruction
binds its label to the index at which it lands, and a label that is taken keeps
the instruction out altogether.
-/

namespace RegisterMachine

/-- A row of instructions and the labels of their places. -/
structure Program where
  labels : LabelTable := {}
  instructions : Array Instruction := #[]
  deriving DecidableEq, Repr, Inhabited

/-- One line of a listing: the index in a field of four, and the instruction. -/
def Instruction.listing (instruction : Instruction) (index : Nat) : String :=
  Text.pad .right 4 (Numeral.ofNat index) ++ "  " ++ instruction.description

/-- Instructions one to a line, each with its index. -/
def listing (instructions : Array Instruction) : String :=
  String.join (instructions.toList.zipIdx.map fun (instruction, index) =>
    instruction.listing index ++ "\n")

namespace Program

/-- The program without instructions. -/
def empty : Program :=
  {}

/-- The number of instructions. -/
def size (program : Program) : Nat :=
  program.instructions.size

/-- Appends an instruction and binds its label, if it has one, to its index. -/
@[inline] def push (program : Program) (instruction : Instruction) : Except Error Program := do
  let labels ←
    if instruction.label = "" then pure program.labels
    else program.labels.define instruction.label program.size
  return { labels, instructions := program.instructions.push instruction }

/-- The listing of a program: its label table and its instructions. -/
def display (program : Program) : String :=
  "labels: " ++ program.labels.display ++ "\n" ++ listing program.instructions

end Program

end RegisterMachine
