import RegisterMachine.Proofs.Changes
import RegisterMachine.Proofs.WellFormed

/-!
# Registers that a program does not name

What an operation comes to depends on the registers that it names and on how
many registers there are (`Operation.effect_congr`), and what it stores goes
into one of those that it names. A register that no instruction of the program
names is therefore neither read nor written, however long the machine runs: what
it holds it keeps, and to put something else into it changes nothing but that.

The second of these gives the first. A machine does not change when a register
is written with what it holds already, and if that may be done before any number
of steps or after them, then the register holds the same after them.
-/

namespace RegisterMachine

namespace RegisterFile

variable {file : RegisterFile} {register other : UInt64} {value : Int64}

theorem write_comm (value otherValue : Int64) (h : register ≠ other) :
    (file.write register value).write other otherValue
      = (file.write other otherValue).write register value := by
  have hapart : register.toNat ≠ other.toNat := fun hsame => h (UInt64.toNat_inj.1 hsame)
  rw [write, write, write, write, Array.setIfInBounds_comm _ _ hapart]

theorem Holds.write_eq (h : file.Holds register value) : file.write register value = file := by
  obtain ⟨hregister, hvalue⟩ := Array.getElem?_eq_some_iff.1 h
  rw [write, ← hvalue, Array.setIfInBounds_def, dif_pos hregister, Array.set_getElem_self]

end RegisterFile

namespace Operation

variable {file other : RegisterFile} {labels : LabelTable} {operation : Operation}

theorem effect_congr (hsize : other.size = file.size)
    (hget : ∀ register ∈ operation.registers, other.get register = file.get register) :
    operation.effect other labels = operation.effect file labels := by
  have hcheck : other.check = file.check := by
    funext register
    rw [RegisterFile.check, RegisterFile.check, RegisterFile.outOfBounds, RegisterFile.outOfBounds,
      hsize]
  cases operation with
  | load register value => rw [effect, effect, hcheck]
  | arith op result op1 op2 =>
      have h1 := hget op1 (by simp [registers])
      have h2 := hget op2 (by simp [registers])
      rw [effect, effect, h1, h2, hcheck]
  | print register => rw [effect, effect, hget register List.mem_cons_self]
  | branch register target => rw [effect, effect, hget register List.mem_cons_self]

/-- What is stored goes into a register that is named. -/
theorem Yields.register_mem {register : UInt64} {value : Int64}
    (h : operation.Yields file labels (.store register value)) :
    register ∈ operation.registers := by
  cases h with
  | load h => exact List.mem_cons_self
  | arith ha hb hvalue hresult => exact List.mem_cons_self

end Operation

namespace Machine

variable {machine : Machine} {register : UInt64}

/-- The register is an operand of an instruction of the program. -/
def Names (machine : Machine) (register : UInt64) : Prop :=
  ∃ instruction ∈ machine.instructions, register ∈ instruction.operation.registers

def withRegister (register : UInt64) (value : Int64) : Machine → Machine :=
  onRegisters (·.write register value)

theorem commutes_withRegister (h : ¬ machine.Names register) (value : Int64) :
    Commutes (withRegister register value) id id machine := by
  have hunnamed : ∀ instruction, machine.instructions[machine.pc]? = some instruction →
      register ∉ instruction.operation.registers :=
    fun instruction hfetch hnamed => h ⟨instruction, Array.mem_of_getElem? hfetch, hnamed⟩
  refine commutes_onRegisters (fun instruction hfetch => ?_)
    fun instruction stored result hfetch heffect => ?_
  · refine Operation.effect_congr (RegisterFile.size_write ..) fun named hnamed => ?_
    refine RegisterFile.get_write_of_ne _ value fun hsame => hunnamed instruction hfetch ?_
    rwa [hsame]
  · have hstored := (Operation.effect_eq_ok_iff.1 heffect).register_mem
    refine RegisterFile.write_comm value result fun hsame => hunnamed instruction hfetch ?_
    rwa [hsame]

theorem names_stepped (count : Nat) :
    (machine.stepped count).Names register ↔ machine.Names register := by
  rw [Names, Names, (machine.stepped_frame count).2.1]

theorem stepped_withRegister (h : ¬ machine.Names register) (value : Int64) (count : Nat) :
    (machine.withRegister register value).stepped count
      = (machine.stepped count).withRegister register value :=
  stepped_of_commutes fun k _ => commutes_withRegister (mt (names_stepped k).1 h) value

theorem outcome_stepped_withRegister (h : ¬ machine.Names register) (value : Int64) (count : Nat) :
    ((machine.withRegister register value).stepped count).step.2
      = (machine.stepped count).step.2 :=
  outcome_of_commutes_id fun k _ => commutes_withRegister (mt (names_stepped k).1 h) value

theorem holds_stepped {value : Int64} (h : ¬ machine.Names register)
    (hholds : machine.registers.Holds register value) (count : Nat) :
    (machine.stepped count).registers.Holds register value := by
  -- To write what is held already changes nothing, neither before the steps nor after them.
  have hwritten : machine.withRegister register value = machine := by
    rw [withRegister, onRegisters, hholds.write_eq]
  have hafter := stepped_withRegister h value count
  have hregister : register.toNat < (machine.stepped count).registers.size := by
    rw [(machine.stepped_frame count).2.2]
    exact hholds.lt_size
  rw [hwritten] at hafter
  rw [hafter]
  exact RegisterFile.holds_write value hregister

/-- Two machines that show the same but for what one register holds. -/
structure AgreesBut (register : UInt64) (machine other : Machine) : Prop where
  pc : other.pc = machine.pc
  console : other.console = machine.console
  size : other.registers.size = machine.registers.size
  registers : ∀ index, index ≠ register.toNat →
    other.registers.values[index]? = machine.registers.values[index]?

theorem agreesBut_withRegister (value : Int64) :
    machine.AgreesBut register (machine.withRegister register value) where
  pc := rfl
  console := rfl
  size := RegisterFile.size_write ..
  registers _ hindex := RegisterFile.getElem?_write_of_ne value hindex

/-- A register that no instruction of the program names keeps what it holds, and the machine with
another value in it takes the same steps and shows the same in everything else. -/
theorem unnamed_register_unseen {machine : Machine} {register : UInt64}
    (hregister : register.toNat < machine.registers.size) (h : ¬ machine.Names register) :
    (∀ value, machine.registers.Holds register value →
        ∀ count, (machine.stepped count).registers.Holds register value)
      ∧ ∀ value count,
        let other := machine.withRegister register value
        (other.stepped count).step.2 = (machine.stepped count).step.2
          ∧ (machine.stepped count).AgreesBut register (other.stepped count)
          ∧ (other.stepped count).registers.Holds register value := by
  refine ⟨fun value hholds => holds_stepped h hholds, fun value count => ⟨?_, ?_, ?_⟩⟩
  · exact outcome_stepped_withRegister h value count
  · rw [stepped_withRegister h]
    exact agreesBut_withRegister value
  · have hunnamed : ¬ (machine.withRegister register value).Names register := h
    have hwritten : (machine.withRegister register value).registers.Holds register value :=
      RegisterFile.holds_write value hregister
    exact holds_stepped hunnamed hwritten count

/-- A loop that counts the first register down by means of the second, and leaves the third
alone. -/
def countdown : Machine where
  registers := ⟨#[3, -1, 7]⟩
  labels := ⟨[("again", 0)], by decide⟩
  instructions := #[⟨"again", .print 0⟩, ⟨"", .arith .add 0 0 1⟩, ⟨"", .branch 0 "again"⟩]

theorem unnamed_register_unseen_countdown :
    (∀ count, (countdown.stepped count).registers.Holds 2 7)
      ∧ ((countdown.withRegister 2 100).stepped 9).step.2 = .halted
      ∧ ((countdown.withRegister 2 100).stepped 9).console.lines = #["3", "2", "1"]
      ∧ ((countdown.withRegister 2 100).stepped 9).registers.Holds 2 100 := by
  have hunnamed : ¬ countdown.Names 2 := by simp [Names, countdown, Operation.registers]
  obtain ⟨hkept, hunseen⟩ := unnamed_register_unseen (by decide) hunnamed
  obtain ⟨houtcome, hagrees, hholds⟩ := hunseen 100 9
  have hhalted : (countdown.stepped 9).step.2 = .halted := by decide
  have hprinted : (countdown.stepped 9).console = ⟨#["3", "2", "1"]⟩ := by decide +kernel
  exact ⟨hkept 7 (by decide), houtcome.trans hhalted,
    congrArg Console.lines (hagrees.console.trans hprinted), hholds⟩

end Machine

end RegisterMachine
