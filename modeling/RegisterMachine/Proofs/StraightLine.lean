import Mathlib.Data.Int.ModEq
import Mathlib.Data.List.Forall2
import Mathlib.Logic.Function.Basic
import RegisterMachine.Proofs.WellFormed

/-!
# Straight-line arithmetic is exact modulo 2^64

Loads, sums, differences, products and prints can be carried out on integers
without bound just as well as on words. Taking an integer to its word is a ring
map, so it does not matter whether one wraps around after every instruction or
once at the end. Hence the machine holds and prints the words of what the ideal
registers would hold and print. Quotients are not among these operations, since
a quotient is not determined by the residues of its operands, and neither are
branches, which look at a value.

`Agrees` is the relation between the machine and the ideal registers. One
instruction keeps it, whatever its operands and its destination have in common,
since the operands are read before the destination is written on both sides.
-/

namespace RegisterMachine

/-! ## Words and integers -/

/-- The word is the only integer of the signed range that is congruent to the number. -/
def Represents (word : Int64) (number : Int) : Prop :=
  ∀ value : Int, (-2 ^ 63 ≤ value ∧ value < 2 ^ 63 ∧ value ≡ number [ZMOD 2 ^ 64])
    ↔ value = word.toInt

theorem represents_ofInt (number : Int) : Represents (.ofInt number) number := by
  intro value
  have hword : (Int64.ofInt number).toInt = value
      ↔ -(2 ^ 64 / 2) ≤ value ∧ value < (2 ^ 64 + 1) / 2 ∧ (2 ^ 64 : Int) ∣ value - number := by
    rw [Int64.toInt_ofInt]
    exact Int.bmod_eq_iff (by decide)
  rw [@eq_comm _ value, hword, Int.modEq_comm, Int.modEq_iff_dvd]
  omega

namespace Arithmetic

/-- The value of an operation on integers, unless it is a division. -/
def unbounded? : Arithmetic → Int → Int → Option Int
  | add, a, b => some (a + b)
  | sub, a, b => some (a - b)
  | mul, a, b => some (a * b)
  | div, _, _ => none

theorem eval?_ofInt {op : Arithmetic} {a b number : Int} (h : op.unbounded? a b = some number) :
    op.eval? (.ofInt a) (.ofInt b) = some (.ofInt number) := by
  cases op with
  | add =>
      obtain rfl := Option.some.inj h
      rw [eval?, Int64.ofInt_add]
  | sub =>
      obtain rfl := Option.some.inj h
      rw [eval?, Int64.ofInt_sub]
  | mul =>
      obtain rfl := Option.some.inj h
      rw [eval?, Int64.ofInt_mul]
  | div => cases h

end Arithmetic

/-! ## The ideal registers -/

/-- Registers that hold integers without bound, and the integers printed so far. -/
structure Ideal where
  registers : Nat → Int := fun _ => 0
  printed : List Int := []

/-- The instructions that neither divide nor branch. -/
def Opcode.straight : List Opcode :=
  [.lin, .arith .add, .arith .sub, .arith .mul, .out]

namespace Ideal

variable (ideal : Ideal)

def write (register : UInt64) (number : Int) : Ideal :=
  { ideal with registers := Function.update ideal.registers register.toNat number }

def print (number : Int) : Ideal :=
  { ideal with printed := ideal.printed ++ [number] }

/-- Carries out an operation, unless it divides or branches. -/
def perform? : Operation → Option Ideal
  | .load register value => some (ideal.write register value.toInt)
  | .arith op result op1 op2 =>
    (op.unbounded? (ideal.registers op1.toNat) (ideal.registers op2.toNat)).map (ideal.write result)
  | .print register => some (ideal.print (ideal.registers register.toNat))
  | .branch .. => none

/-- Carries out the operations of instructions in their order. -/
def performAll? (instructions : List Instruction) : Option Ideal :=
  instructions.foldlM (fun ideal instruction => ideal.perform? instruction.operation) ideal

theorem write_self (register : UInt64) (number : Int) :
    (ideal.write register number).registers register.toNat = number :=
  Function.update_self ..

theorem write_of_ne {register : UInt64} {index : Nat} (h : register.toNat ≠ index) (number : Int) :
    (ideal.write register number).registers index = ideal.registers index :=
  Function.update_of_ne h.symm ..

theorem exists_perform? {operation : Operation} (h : operation.opcode ∈ Opcode.straight) :
    ∃ next, ideal.perform? operation = some next := by
  cases operation with
  | load register value => exact ⟨_, rfl⟩
  | arith op result op1 op2 =>
      cases op with
      | add | sub | mul => exact ⟨_, rfl⟩
      | div => simp [Operation.opcode, Opcode.straight] at h
  | print register => exact ⟨_, rfl⟩
  | branch register target => simp [Operation.opcode, Opcode.straight] at h

theorem performAll?_cons {instruction : Instruction} {rest : List Instruction} {last : Ideal}
    (h : ideal.performAll? (instruction :: rest) = some last) :
    ∃ next, ideal.perform? instruction.operation = some next
      ∧ next.performAll? rest = some last := by
  rw [performAll?, List.foldlM_cons] at h
  exact Option.bind_eq_some_iff.1 h

theorem exists_performAll? (instructions : List Instruction)
    (h : ∀ instruction ∈ instructions, instruction.operation.opcode ∈ Opcode.straight) :
    ∀ ideal : Ideal, ∃ last, ideal.performAll? instructions = some last := by
  induction instructions with
  | nil => exact fun ideal => ⟨ideal, rfl⟩
  | cons instruction rest ih =>
      intro ideal
      obtain ⟨next, hnext⟩ := ideal.exists_perform? (h instruction List.mem_cons_self)
      obtain ⟨last, hlast⟩ := ih (fun made hmade => h made (List.mem_cons_of_mem _ hmade)) next
      refine ⟨last, ?_⟩
      rw [performAll?, List.foldlM_cons, hnext]
      exact hlast

end Ideal

/-! ## The machine and the ideal registers -/

namespace Machine

variable {machine : Machine} {ideal next : Ideal} {before : List String}

/-- The machine holds the words of what the ideal registers hold, and has printed the words of what
they have printed, after the lines that were there before. -/
structure Agrees (before : List String) (machine : Machine) (ideal : Ideal) : Prop where
  holds : ∀ index < machine.registers.size,
    machine.registers.values[index]? = some (.ofInt (ideal.registers index))
  lines : machine.console.lines.toList
    = before ++ ideal.printed.map fun number => Numeral.ofInt (Int64.ofInt number).toInt

theorem Agrees.fetched (h : Agrees before machine ideal) (instruction : Instruction) :
    Agrees before (machine.fetched instruction) ideal := by
  refine ⟨?_, ?_⟩
  · rw [fetched_registers]
    exact h.holds
  · rw [fetched_console]
    exact h.lines

theorem Agrees.store (h : Agrees before machine ideal) (register : UInt64) (number : Int) :
    Agrees before (machine.apply (.store register (.ofInt number)))
      (ideal.write register number) := by
  refine ⟨fun index hindex => ?_, h.lines⟩
  rw [apply_size] at hindex
  show (machine.registers.values.setIfInBounds register.toNat _)[index]? = _
  by_cases hsame : register.toNat = index
  · subst hsame
    rw [Array.getElem?_setIfInBounds_self_of_lt hindex, Ideal.write_self]
  · rw [Array.getElem?_setIfInBounds_ne hsame, ideal.write_of_ne hsame, h.holds index hindex]

theorem Agrees.print (h : Agrees before machine ideal) (number : Int) :
    Agrees before (machine.apply (.print (.ofInt number))) (ideal.print number) := by
  refine ⟨h.holds, ?_⟩
  rw [apply, Console.addValue, Console.toList_addLine, h.lines, Ideal.print, List.map_append,
    List.append_assoc]
  rfl

/-- An operation yields an effect that does to the machine what the operation does to the ideal
registers. -/
theorem Agrees.exists_effect (h : Agrees before machine ideal) {operation : Operation}
    (hperform : ideal.perform? operation = some next)
    (hnamed : ∀ register ∈ operation.registers, register.toNat < machine.registers.size) :
    ∃ effect, operation.Yields machine.registers machine.labels effect
      ∧ ∀ other : Machine, Agrees before other ideal →
        Agrees before (other.apply effect) next ∧ (other.apply effect).pc = other.pc := by
  have hholds : ∀ register ∈ operation.registers,
      machine.registers.Holds register (.ofInt (ideal.registers register.toNat)) :=
    fun register hregister => h.holds register.toNat (hnamed register hregister)
  cases operation with
  | load register value =>
      obtain rfl := Option.some.inj hperform
      refine ⟨_, .load (hnamed register (by simp [Operation.registers])), fun other hother => ?_⟩
      -- A literal is a word to begin with, and the word of its integer.
      have hstore := hother.store register value.toInt
      rw [Int64.ofInt_toInt] at hstore
      exact ⟨hstore, rfl⟩
  | arith op result op1 op2 =>
      obtain ⟨number, hnumber, rfl⟩ := Option.map_eq_some_iff.1 hperform
      have hop1 := hholds op1 (by simp [Operation.registers])
      have hop2 := hholds op2 (by simp [Operation.registers])
      have hresult := hnamed result (by simp [Operation.registers])
      refine ⟨_, .arith hop1 hop2 (Arithmetic.eval?_ofInt hnumber) hresult, ?_⟩
      exact fun other hother => ⟨hother.store result number, rfl⟩
  | print register =>
      obtain rfl := Option.some.inj hperform
      refine ⟨_, .print (hholds register (by simp [Operation.registers])), ?_⟩
      exact fun other hother => ⟨hother.print _, rfl⟩
  | branch register target => cases hperform

theorem Agrees.step (h : Agrees before machine ideal) {instruction : Instruction}
    (hfetch : machine.instructions[machine.pc]? = some instruction)
    (hperform : ideal.perform? instruction.operation = some next)
    (hnamed : ∀ register ∈ instruction.operation.registers,
      register.toNat < machine.registers.size) :
    ∃ after, machine.step = (after, .continued) ∧ after.pc = machine.pc + 1
      ∧ Agrees before after next := by
  obtain ⟨effect, hyields, hagrees⟩ := h.exists_effect hperform hnamed
  obtain ⟨hafter, hpc⟩ := hagrees _ (h.fetched instruction)
  exact ⟨_, step_of_effect hfetch hyields.effect_eq, hpc.trans fetched_pc, hafter⟩

/-- A machine performs the instructions before it and halts. -/
theorem Agrees.runFrom {last : Ideal} (rest : List Instruction) :
    ∀ (machine : Machine) (ideal : Ideal) (executed steps : Nat),
      Agrees before machine ideal →
      machine.instructions.toList.drop machine.pc = rest →
      ideal.performAll? rest = some last →
      (∀ instruction ∈ rest, ∀ register ∈ instruction.operation.registers,
        register.toNat < machine.registers.size) →
      rest.length < steps →
      ∃ after, Machine.runFrom executed steps machine = (after, executed + rest.length, .halted)
        ∧ after.registers.size = machine.registers.size ∧ Agrees before after last := by
  -- The induction is on the instructions that are left, which are those from the counter on.
  induction rest with
  | nil =>
      intro machine ideal executed steps h hrest hperform hnamed hsteps
      obtain ⟨steps, rfl⟩ := Nat.exists_eq_succ_of_ne_zero (Nat.ne_of_gt hsteps)
      obtain rfl : ideal = last := Option.some.inj hperform
      have hpc : machine.instructions.size ≤ machine.pc := by
        simpa using List.drop_eq_nil_iff.1 hrest
      refine ⟨machine, ?_, rfl, h⟩
      rw [Machine.runFrom, step_of_halted hpc]
      rfl
  | cons instruction rest ih =>
      intro machine ideal executed steps h hrest hperform hnamed hsteps
      obtain ⟨steps, rfl⟩ := Nat.exists_eq_succ_of_ne_zero (Nat.ne_of_gt (Nat.zero_lt_of_lt hsteps))
      obtain ⟨next, hnext, hperform⟩ := ideal.performAll?_cons hperform
      have hfetch : machine.instructions[machine.pc]? = some instruction := by
        rw [← Array.getElem?_toList, ← List.head?_drop, hrest, List.head?_cons]
      obtain ⟨after, hstep, hpc, hafter⟩ :=
        h.step hfetch hnext (hnamed instruction List.mem_cons_self)
      obtain ⟨-, hinstructions, hsize⟩ := machine.step_frame
      rw [hstep] at hinstructions hsize
      have hleft : after.instructions.toList.drop after.pc = rest := by
        rw [hinstructions, hpc, ← List.tail_drop, hrest, List.tail_cons]
      obtain ⟨final, hrun, hfinal, hagrees⟩ :=
        ih after next (executed + 1) steps hafter hleft hperform
          (fun made hmade => hsize ▸ hnamed made (List.mem_cons_of_mem _ hmade))
          (Nat.lt_of_succ_lt_succ hsteps)
      refine ⟨final, ?_, hfinal.trans hsize, hagrees⟩
      rw [Machine.runFrom, hstep]
      simp only []
      rw [hrun, List.length_cons, Nat.add_right_comm, Nat.add_assoc]

theorem agrees_initial (config : Config) (program : Program) (console : Console) :
    Agrees console.lines.toList (initial config program console) {} := by
  refine ⟨fun index hindex => ?_, by simp [initial]⟩
  rw [initial, RegisterFile.size_zeros] at hindex
  rw [initial, RegisterFile.zeros, Array.getElem?_replicate, if_pos hindex]
  rfl

/-- A program that neither divides nor branches, on a new machine with all the registers that it
names, is performed from its first instruction to its last. In the end the registers hold, and in
between the machine has printed, the words that represent what would be held and printed without
bounds on the integers. -/
theorem straight_line_exact (program : Program) (console : Console) {config : Config}
    (hregisters : 0 < config.registers)
    (hstraight : ∀ instruction ∈ program.instructions,
      instruction.operation.opcode ∈ Opcode.straight)
    (hnamed : ∀ instruction ∈ program.instructions,
      ∀ register ∈ instruction.operation.registers, register.toNat < config.registers) :
    ∃ ideal, ({} : Ideal).performAll? program.instructions.toList = some ideal
      ∧ (config.registers < RegisterFile.limit →
        ∃ machine, Machine.new config program console = .ok machine)
      ∧ ∀ machine, Machine.new config program console = .ok machine →
        ∀ steps, program.size < steps → ∃ (after : Machine) (words : List Int64),
          machine.run steps = (after, program.size, .halted)
            ∧ after.registers.size = config.registers
            ∧ (∀ index < config.registers, ∃ word, after.registers.values[index]? = some word
                ∧ Represents word (ideal.registers index))
            ∧ after.console.lines.toList
              = console.lines.toList ++ words.map (fun word => Numeral.ofInt word.toInt)
            ∧ List.Forall₂ Represents words ideal.printed := by
  obtain ⟨ideal, hideal⟩ := Ideal.exists_performAll? program.instructions.toList
    (fun made hmade => hstraight made (Array.mem_toList_iff.1 hmade)) ({} : Ideal)
  refine ⟨ideal, hideal, exists_new hregisters program console, ?_⟩
  intro machine hnew steps hsteps
  obtain ⟨-, rfl⟩ := eq_initial_of_new hnew
  obtain ⟨after, hrun, hsize, hagrees⟩ :=
    (agrees_initial config program console).runFrom program.instructions.toList _ _ 0 steps rfl
      hideal (by simpa [initial] using hnamed) hsteps
  rw [initial, RegisterFile.size_zeros] at hsize
  refine ⟨after, ideal.printed.map .ofInt, ?_, hsize, ?_, ?_, ?_⟩
  · rw [Machine.run, hrun, Nat.zero_add]
    rfl
  · intro index hindex
    exact ⟨_, hagrees.holds index (hsize ▸ hindex), represents_ofInt _⟩
  · rw [hagrees.lines, List.map_map]
    rfl
  · rw [List.forall₂_map_left_iff, List.forall₂_same]
    exact fun number _ => represents_ofInt number

/-- A product that wraps around and then is squared in place. -/
def squaring : Program where
  instructions :=
    #[⟨"", .load 0 3037000500⟩, ⟨"a", .arith .mul 0 0 0⟩, ⟨"", .print 0⟩,
      ⟨"", .arith .mul 0 0 0⟩, ⟨"", .print 0⟩]

theorem straight_line_exact_squaring :
    ∃ machine ideal, Machine.new { registers := 1 } squaring {} = .ok machine
      ∧ ({} : Ideal).performAll? squaring.instructions.toList = some ideal
      ∧ ideal.printed = [3037000500 ^ 2, 3037000500 ^ 4]
      ∧ ∃ (after : Machine) (words : List Int64), machine.run 9 = (after, 5, .halted)
        ∧ after.console.lines.toList = words.map (fun word => Numeral.ofInt word.toInt)
        ∧ List.Forall₂ Represents words ideal.printed
        ∧ after.console.lines = #["-9223372036709301616", "21162740538052864"] := by
  obtain ⟨ideal, hideal, hbuilt, hrun⟩ := straight_line_exact squaring {}
    (show 0 < ({ registers := 1 } : Config).registers by decide)
    (by simp [squaring, Operation.opcode, Opcode.straight])
    (by simp [squaring, Operation.registers])
  obtain ⟨machine, hnew⟩ := hbuilt (by decide)
  obtain ⟨after, words, hafter, -, -, hlines, hwords⟩ := hrun machine hnew 9 (by decide)
  obtain rfl := Except.ok.inj hnew
  obtain rfl := Option.some.inj hideal
  refine ⟨_, _, hnew, hideal, by decide, after, words, hafter, hlines, hwords, ?_⟩
  obtain rfl := congrArg Prod.fst hafter
  decide +kernel

end Machine

end RegisterMachine
