import RegisterMachine.Proofs.Effects
import RegisterMachine.Proofs.Output

/-!
# More registers make no difference until one is missing

A machine with more registers does what a machine with fewer does, up to the
first step at which the latter comes to a register that it has not got. Until
then the spare registers are not so much as looked at. They hold zero to the
end, and all faults but this one, as well as the end of the program, come to
both machines alike.

So the larger machine is the smaller one with zeros behind its registers
(`padded`), and padding may be done before a step or after it unless the step
misses a register. Which operations miss one is not the same as which operations
name one: a division by zero never comes to its result. Hence the argument goes
by what an operation yields or fails with, and not by what it names.
-/

namespace RegisterMachine

namespace RegisterFile

variable {file : RegisterFile} {register : UInt64} {value : Int64} {extra : Nat}

/-- The registers with more of them behind, which hold zero. -/
def padded (extra : Nat) (file : RegisterFile) : RegisterFile :=
  ⟨file.values ++ Array.replicate extra 0⟩

theorem size_padded : (file.padded extra).size = file.size + extra := by
  simp [size, padded]

theorem getElem?_padded {index : Nat} (h : index < file.size) :
    (file.padded extra).values[index]? = file.values[index]? :=
  Array.getElem?_append_left h

theorem getElem?_padded_of_le {index : Nat} (h : file.size ≤ index)
    (hextra : index < file.size + extra) : (file.padded extra).values[index]? = some 0 := by
  have hbehind : index - file.values.size < extra := by
    rw [size] at h hextra
    omega
  rw [padded, Array.getElem?_append_right h, Array.getElem?_replicate, if_pos hbehind]

theorem Holds.padded (h : file.Holds register value) :
    (file.padded extra).Holds register value :=
  (getElem?_padded h.lt_size).trans h

theorem write_padded (value : Int64) (h : register.toNat < file.size) :
    (file.padded extra).write register value = (file.write register value).padded extra := by
  have hinside : register.toNat < file.values.size := h
  rw [write, padded, write, padded, Array.setIfInBounds_append_left hinside]

theorem zeros_padded (count extra : Nat) : (zeros count).padded extra = zeros (count + extra) := by
  rw [zeros, padded, Array.replicate_append_replicate, zeros]

end RegisterFile

/-- It came of a step that a register was not there. -/
def Outcome.MissesRegister (outcome : Outcome) : Prop :=
  ∃ register available, outcome = .failed (.registerOutOfBounds register available)

theorem Outcome.not_missesRegister_continued : ¬ continued.MissesRegister := by
  intro h
  obtain ⟨_, _, h⟩ := h
  cases h

namespace Operation

variable {file : RegisterFile} {labels : LabelTable} {operation : Operation} {effect : Effect}

theorem Yields.padded (extra : Nat) (h : operation.Yields file labels effect) :
    operation.Yields (file.padded extra) labels effect := by
  cases h with
  | load h => exact .load (by rw [RegisterFile.size_padded]; omega)
  | arith ha hb hvalue hresult =>
      exact .arith ha.padded hb.padded hvalue (by rw [RegisterFile.size_padded]; omega)
  | divZero ha hb => exact .divZero ha.padded hb.padded
  | print h => exact .print h.padded
  | pass h => exact .pass h.padded
  | jump h htaken hfind => exact .jump h.padded htaken hfind

/-- As long as no register is missing, more of them come to the same. -/
theorem effect_padded (extra : Nat)
    (h : ∀ register available,
      operation.effect file labels ≠ .error (.registerOutOfBounds register available)) :
    operation.effect (file.padded extra) labels = operation.effect file labels := by
  cases heffect : operation.effect file labels with
  | ok effect => exact ((effect_eq_ok_iff.1 heffect).padded extra).effect_eq
  | error error =>
      cases effect_eq_error_iff.1 heffect with
      | register hmissing => exact absurd heffect (h _ _)
      | target hbranch hvalue htaken hunbound =>
          exact (FailsWith.target hbranch hvalue.padded htaken hunbound).effect_eq

theorem Yields.register_lt {register : UInt64} {value : Int64}
    (h : operation.Yields file labels (.store register value)) :
    register.toNat < file.size := by
  cases h with
  | load h => exact h
  | arith ha hb hvalue hresult => exact hresult

end Operation

namespace Machine

variable {machine : Machine}

def padded (extra : Nat) : Machine → Machine :=
  onRegisters (RegisterFile.padded extra)

/-! ## One step -/

theorem commutes_padded (extra : Nat) (h : ¬ machine.step.2.MissesRegister) :
    Commutes (padded extra) id id machine := by
  refine commutes_onRegisters (fun instruction hfetch => ?_) fun _ register value _ heffect => ?_
  · refine Operation.effect_padded extra fun register available heffect => h ?_
    rw [step_of_fault hfetch heffect]
    exact ⟨register, available, rfl⟩
  · exact RegisterFile.write_padded value (Operation.effect_eq_ok_iff.1 heffect).register_lt

/-- The register that was missed is behind those that there are, and the fault tells their
number. -/
theorem missed_of_failed {register : UInt64} {available : Nat}
    (h : machine.step.2 = .failed (.registerOutOfBounds register available)) :
    available = machine.registers.size ∧ machine.registers.size ≤ register.toNat := by
  obtain ⟨instruction, -, heffect, -⟩ := step_of_failed h
  cases Operation.effect_eq_error_iff.1 heffect with
  | register hmissing => exact ⟨rfl, (Operation.le_of_firstMissing? hmissing).2⟩

/-- Machines with different numbers of registers cannot miss one alike. -/
theorem outcome_ne_of_missed {larger : Machine} {register : UInt64} {available : Nat}
    (h : machine.step.2 = .failed (.registerOutOfBounds register available))
    (hmore : machine.registers.size < larger.registers.size) :
    larger.step.2 ≠ machine.step.2 := by
  intro hsame
  obtain ⟨hfew, -⟩ := missed_of_failed h
  obtain ⟨hmany, -⟩ := missed_of_failed (hsame.trans h)
  omega

/-! ## Many steps -/

theorem stepped_padded (extra : Nat) {count : Nat}
    (h : ∀ k < count, ¬ (machine.stepped k).step.2.MissesRegister) :
    (machine.padded extra).stepped count = (machine.stepped count).padded extra :=
  stepped_of_commutes fun k hk => commutes_padded extra (h k hk)

theorem outcome_stepped_padded (extra : Nat) {count : Nat}
    (h : ∀ k ≤ count, ¬ (machine.stepped k).step.2.MissesRegister) :
    ((machine.padded extra).stepped count).step.2 = (machine.stepped count).step.2 :=
  outcome_of_commutes_id fun k hk => commutes_padded extra (h k hk)

/-- One machine shows what another shows that has fewer registers, and the registers which the other
has not got hold zero. -/
structure Extends (larger machine : Machine) (few many : Nat) : Prop where
  pc : larger.pc = machine.pc
  console : larger.console = machine.console
  size : machine.registers.size = few
  sizeLarger : larger.registers.size = many
  shared : ∀ index < few, larger.registers.values[index]? = machine.registers.values[index]?
  spare : ∀ index, few ≤ index → index < many → larger.registers.values[index]? = some 0

theorem extends_of_silent_eq {larger : Machine} {extra : Nat}
    (h : larger.silent = (machine.padded extra).silent) :
    larger.Extends machine machine.registers.size (machine.registers.size + extra) := by
  have hpc := congrArg Machine.pc h
  have hconsole := congrArg Machine.console h
  have hregisters : larger.registers = machine.registers.padded extra :=
    congrArg Machine.registers h
  refine ⟨hpc, hconsole, rfl, ?_, ?_, ?_⟩
  · rw [hregisters, RegisterFile.size_padded]
  · intro index hindex
    rw [hregisters, RegisterFile.getElem?_padded hindex]
  · intro index hindex hextra
    rw [hregisters, RegisterFile.getElem?_padded_of_le hindex hextra]

theorem extends_stepped {larger : Machine} {extra count : Nat}
    (h : larger.silent = (machine.padded extra).silent)
    (hpresent : ∀ k < count, ¬ (machine.stepped k).step.2.MissesRegister) :
    (∀ k < count, (larger.stepped k).step.2 = (machine.stepped k).step.2)
      ∧ ∀ k ≤ count, (larger.stepped k).Extends (machine.stepped k) machine.registers.size
          (machine.registers.size + extra) := by
  refine ⟨fun k hk => ?_, fun k hk => ?_⟩
  · rw [(stepped_of_silent_eq h k).2]
    exact outcome_stepped_padded extra fun j hj => hpresent j (by omega)
  · have hreached := (stepped_of_silent_eq h k).1
    rw [stepped_padded extra fun j hj => hpresent j (by omega)] at hreached
    rw [← (machine.stepped_frame k).2.2]
    exact extends_of_silent_eq hreached

/-- Two new machines for the same program, one of them with more registers: as long as no step of
the one with fewer misses a register, every step comes to the same on both, they show the same, and
the spare registers hold zero. A register that a step misses is one of those behind, and such a step
comes to something else on the machine with more. -/
theorem more_registers_agree (small large : Config) (hregisters : 0 < small.registers)
    (hmore : small.registers ≤ large.registers) (program : Program) (console : Console) :
    (large.registers < RegisterFile.limit →
        ∃ machine larger, Machine.new small program console = .ok machine
          ∧ Machine.new large program console = .ok larger)
      ∧ ∀ machine larger, Machine.new small program console = .ok machine →
        Machine.new large program console = .ok larger →
          (∀ count, (∀ k < count, ¬ (machine.stepped k).step.2.MissesRegister) →
              (∀ k < count, (larger.stepped k).step.2 = (machine.stepped k).step.2)
                ∧ ∀ k ≤ count, (larger.stepped k).Extends (machine.stepped k)
                    small.registers large.registers)
            ∧ ∀ count register available,
                (machine.stepped count).step.2
                  = .failed (.registerOutOfBounds register available) →
                available = small.registers ∧ small.registers ≤ register.toNat
                  ∧ (small.registers < large.registers →
                      (larger.stepped count).step.2 ≠ (machine.stepped count).step.2) := by
  obtain ⟨extra, hextra⟩ := Nat.exists_eq_add_of_le hmore
  have hsmall : (initial small program console).registers.size = small.registers :=
    RegisterFile.size_zeros small.registers
  have hlarge : (initial large program console).registers.size = large.registers :=
    RegisterFile.size_zeros large.registers
  have hsilent : (initial large program console).silent
      = ((initial small program console).padded extra).silent := by
    simp only [silent, padded, onRegisters, initial, RegisterFile.zeros_padded, hextra]
  refine ⟨fun hlimit => ?_, fun machine larger hnew hnewLarger => ?_⟩
  · obtain ⟨machine, hnew⟩ :=
      exists_new hregisters program console (Nat.lt_of_le_of_lt hmore hlimit)
    obtain ⟨larger, hnewLarger⟩ :=
      exists_new (Nat.lt_of_lt_of_le hregisters hmore) program console hlimit
    exact ⟨machine, larger, hnew, hnewLarger⟩
  obtain ⟨-, rfl⟩ := eq_initial_of_new hnew
  obtain ⟨-, rfl⟩ := eq_initial_of_new hnewLarger
  refine ⟨?_, ?_⟩
  · intro count hpresent
    have hagree := extends_stepped hsilent hpresent
    rwa [hsmall, ← hextra] at hagree
  · intro count register available hmissed
    obtain ⟨havailable, hregister⟩ := missed_of_failed hmissed
    rw [(stepped_frame _ count).2.2, hsmall] at havailable hregister
    refine ⟨havailable, hregister, fun hless => outcome_ne_of_missed hmissed ?_⟩
    rwa [(stepped_frame _ count).2.2, (stepped_frame _ count).2.2, hsmall, hlarge]

/-- A division by zero hides its result, which may be missing; a product does not. -/
def hidingResult : Program where
  instructions := #[⟨"", .arith .div 2 0 0⟩, ⟨"", .print 0⟩, ⟨"", .arith .mul 2 0 0⟩]

theorem more_registers_agree_hidingResult :
    ∃ machine larger, Machine.new { registers := 1 } hidingResult {} = .ok machine
      ∧ Machine.new { registers := 3, trace := true } hidingResult {} = .ok larger
      ∧ (∀ k < 2, (larger.stepped k).step.2 = (machine.stepped k).step.2)
      ∧ (larger.stepped 2).Extends (machine.stepped 2) 1 3
      ∧ (larger.stepped 2).console.lines = #["Runtime Error: Division by zero", "0"]
      ∧ (machine.stepped 2).step.2 = .failed (.registerOutOfBounds 2 1)
      ∧ (larger.stepped 2).step.2 ≠ (machine.stepped 2).step.2 := by
  obtain ⟨hbuilt, hcompared⟩ :=
    more_registers_agree { registers := 1 } { registers := 3, trace := true } (by decide)
      (by decide) hidingResult {}
  obtain ⟨machine, larger, hmachine, hlarger⟩ := hbuilt (by decide)
  obtain ⟨hagree, hdiffer⟩ := hcompared machine larger hmachine hlarger
  obtain rfl := Except.ok.inj hmachine
  obtain rfl := Except.ok.inj hlarger
  have hgoes : ∀ k < 2,
      ((initial { registers := 1 } hidingResult {}).stepped k).step.2 = .continued := by decide
  have hmissed : ((initial { registers := 1 } hidingResult {}).stepped 2).step.2
      = .failed (.registerOutOfBounds 2 1) := by decide
  have hpresent : ∀ k < 2,
      ¬ ((initial { registers := 1 } hidingResult {}).stepped k).step.2.MissesRegister := by
    intro k hk
    rw [hgoes k hk]
    exact Outcome.not_missesRegister_continued
  obtain ⟨hsame, hextends⟩ := hagree 2 hpresent
  obtain ⟨-, -, hother⟩ := hdiffer 2 2 1 hmissed
  exact ⟨_, _, hmachine, hlarger, hsame, hextends 2 (Nat.le_refl 2), by decide +kernel, hmissed,
    hother (by decide)⟩

end Machine

end RegisterMachine
