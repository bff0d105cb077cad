import RegisterMachine.Instruction.Decode
import Std.Data.TreeMap

/-!
# The vocabulary of a language

Which mnemonics there are, and what stands after each of them. Mnemonics are
told apart without regard to the case of ASCII letters, so a vocabulary is a map
on lower-cased names, in which the last writer wins. An alias takes over the
meaning that its model has at that moment, and keeps it whatever happens to the
model later.

Nothing else in the assembly names an instruction: a language with more
mnemonics, or none, is another vocabulary.
-/

namespace RegisterMachine

/-- A mnemonic and the format of its instruction. -/
structure Mnemonic where
  /-- The mnemonic as it was entered, which is the name that operand faults use. -/
  spelling : String
  format : InstructionFormat

/-- The known mnemonics by normalized name. -/
structure Vocabulary where
  entries : Std.TreeMap String Mnemonic

namespace Vocabulary

/-- The form of a name under which it is looked up: ASCII letters in lower case. -/
def normalize (name : String) : String :=
  name.map Char.toLower

/-- A vocabulary without mnemonics. -/
def empty : Vocabulary :=
  ⟨∅⟩

/-- Enters a mnemonic under a name and replaces what was there. -/
def insert (vocabulary : Vocabulary) (name : String) (mnemonic : Mnemonic) : Vocabulary :=
  ⟨vocabulary.entries.insert (normalize name) mnemonic⟩

/-- Enters a mnemonic with the format of its instruction. -/
def enter (vocabulary : Vocabulary) (spelling : String) (format : InstructionFormat) : Vocabulary :=
  vocabulary.insert spelling { spelling, format }

/-- The vocabulary of the instruction catalog. -/
def standard : Vocabulary :=
  Opcode.all.foldl (fun vocabulary opcode => vocabulary.enter opcode.mnemonic opcode.format) empty

/-- What a name stands for, if it is known. -/
def find? (vocabulary : Vocabulary) (name : String) : Option Mnemonic :=
  vocabulary.entries[normalize name]?

/-- Whether a name is known. -/
def contains (vocabulary : Vocabulary) (name : String) : Bool :=
  (vocabulary.find? name).isSome

/-- What a name stands for. The fault gives the name as it was spelled. -/
def lookup (vocabulary : Vocabulary) (name : String) : Except Error Mnemonic :=
  match vocabulary.find? name with
  | some mnemonic => .ok mnemonic
  | none => .error (.unknownInstruction name)

/-- Enters another name for what a name stands for now. -/
def enterAlias (vocabulary : Vocabulary) (name model : String) : Except Error Vocabulary := do
  let mnemonic ← vocabulary.lookup model
  return vocabulary.insert name mnemonic

/-- The normalized names, in increasing order. -/
def names (vocabulary : Vocabulary) : List String :=
  vocabulary.entries.keys

end Vocabulary

end RegisterMachine
