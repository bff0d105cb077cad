import RegisterMachine.Proofs.StraightLine

/-!
# What a step does, and nothing besides

The definition of a step goes through effects: an operation looks at the
registers, settles on one thing to do, and the machine does it. Here a step is
told without them, by what is there before and after. `Makes` says which word an
operation of arithmetic makes of two others, in terms of the integers they stand
for, and `Performs` says what a machine comes to by an operation: its registers,
the lines it adds and its counter. All that is read is read from the machine
before the step, so it does not matter which of the registers of an instruction
are the same.

Both relations are exact. A word that two words make is the result of the
operation, and no other is; what a machine comes to is determined by what it was.
A division by zero makes no word, and has a rule of its own.
-/

namespace RegisterMachine

/-! ## Arithmetic -/

/-- The quotient toward zero: what it leaves is smaller than the divisor, and is zero or has the
sign of the dividend. -/
def IsQuotient (dividend divisor quotient : Int) : Prop :=
  ∃ rest, dividend = quotient * divisor + rest ∧ rest.natAbs < divisor.natAbs
    ∧ (rest = 0 ∨ rest.sign = dividend.sign)

theorem isQuotient_iff {a b q : Int} (hb : b ≠ 0) : IsQuotient a b q ↔ q = a.tdiv b := by
  constructor
  · rintro ⟨rest, hsum, hlt, hsign⟩
    have hdividend : rest + b * q = a := by rw [hsum, Int.mul_comm, Int.add_comm]
    rcases Int.le_total 0 a with ha | ha
    · have hrest : 0 ≤ rest := by
        rcases hsign with rfl | hsign
        · exact Int.le_refl 0
        · rwa [← Int.sign_nonneg_iff, hsign, Int.sign_nonneg_iff]
      exact ((Int.tdiv_tmod_unique ha hb).2 ⟨hdividend, hrest, by omega⟩).1.symm
    · have hrest : rest ≤ 0 := by
        rcases hsign with rfl | hsign
        · exact Int.le_refl 0
        · rwa [← Int.sign_nonpos_iff, hsign, Int.sign_nonpos_iff]
      exact ((Int.tdiv_tmod_unique' ha hb).2 ⟨hdividend, by omega, hrest⟩).1.symm
  · rintro rfl
    refine ⟨a.tmod b, ?_, ?_, ?_⟩
    · rw [Int.mul_comm, Int.mul_tdiv_add_tmod]
    · rw [Int.natAbs_tmod]
      exact Nat.mod_lt _ (Int.natAbs_pos.2 hb)
    · by_cases hdvd : b ∣ a
      · exact .inl (Int.tmod_eq_zero_of_dvd hdvd)
      · right
        rw [Int.sign_tmod, if_neg hdvd]

theorem represents_iff {word : Int64} {number : Int} :
    Represents word number ↔ word = .ofInt number := by
  constructor
  · intro h
    have hrange := (represents_ofInt number (Int64.ofInt number).toInt).2 rfl
    exact Int64.toInt_inj.1 ((h _).1 hrange).symm
  · rintro rfl
    exact represents_ofInt number

/-- The word that an operation makes of two words: for a sum, a difference or a product the word
that represents the exact result, for a quotient the word of the quotient toward zero. The one
quotient that is no word is replaced by its dividend. -/
def Arithmetic.Makes : Arithmetic → Int64 → Int64 → Int64 → Prop
  | add, a, b, word => Represents word (a.toInt + b.toInt)
  | sub, a, b, word => Represents word (a.toInt - b.toInt)
  | mul, a, b, word => Represents word (a.toInt * b.toInt)
  | div, a, b, word =>
    b.toInt ≠ 0 ∧
      if a.toInt = -2 ^ 63 ∧ b.toInt = -1 then word.toInt = -2 ^ 63
      else IsQuotient a.toInt b.toInt word.toInt

theorem Arithmetic.toInt_div {a b : Int64} (h : ¬ (a.toInt = -2 ^ 63 ∧ b.toInt = -1)) :
    (a / b).toInt = a.toInt.tdiv b.toInt := by
  by_cases ha : a = Int64.minValue
  · refine Int64.toInt_div_of_ne_right a b fun hb => h ?_
    rw [ha, hb]
    exact ⟨Int64.toInt_minValue, rfl⟩
  · exact Int64.toInt_div_of_ne_left a b ha

theorem Arithmetic.makes_iff {op : Arithmetic} {a b word : Int64} :
    op.Makes a b word ↔ op.eval? a b = some word := by
  cases op with
  | add =>
      rw [Makes, represents_iff, Int64.ofInt_add, Int64.ofInt_toInt, Int64.ofInt_toInt, eval?,
        Option.some.injEq, eq_comm]
  | sub =>
      rw [Makes, represents_iff, Int64.ofInt_sub, Int64.ofInt_toInt, Int64.ofInt_toInt, eval?,
        Option.some.injEq, eq_comm]
  | mul =>
      rw [Makes, represents_iff, Int64.ofInt_mul, Int64.ofInt_toInt, Int64.ofInt_toInt, eval?,
        Option.some.injEq, eq_comm]
  | div =>
      rw [Makes, eval?]
      by_cases hb : b = 0
      · rw [if_pos hb, hb]
        constructor
        · intro hmakes
          exact absurd rfl hmakes.1
        · intro hnone
          cases hnone
      · have hdivisor : b.toInt ≠ 0 := fun hzero => hb (Int64.toInt_inj.1 hzero)
        rw [if_neg hb, and_iff_right hdivisor, Option.some.injEq, ← Int64.toInt_inj]
        split
        · next hcorner =>
            obtain ⟨ha, hb⟩ := hcorner
            obtain rfl : a = Int64.minValue :=
              Int64.toInt_inj.1 (ha.trans Int64.toInt_minValue.symm)
            obtain rfl : b = -1 := Int64.toInt_inj.1 hb
            rw [show Int64.minValue / -1 = Int64.minValue by decide, Int64.toInt_minValue, eq_comm]
        · next hcorner =>
            rw [isQuotient_iff hdivisor, toInt_div hcorner, eq_comm]

/-! ## Registers -/

/-- One register takes a value, and the others are what they were. -/
structure RegisterFile.Takes (file : RegisterFile) (register : UInt64) (value : Int64)
    (after : RegisterFile) : Prop where
  size : after.size = file.size
  holds : after.Holds register value
  others : ∀ index, index ≠ register.toNat → after.values[index]? = file.values[index]?

namespace RegisterFile

variable {file after other : RegisterFile} {register : UInt64} {value : Int64}

theorem takes_write (h : register.toNat < file.size) :
    file.Takes register value (file.write register value) where
  size := size_write file register value
  holds := holds_write value h
  others _ hindex := getElem?_write_of_ne value hindex

theorem Takes.unique (h : file.Takes register value after)
    (hother : file.Takes register value other) : after = other := by
  have hvalues : after.values = other.values := by
    refine Array.ext_getElem? fun index => ?_
    by_cases hindex : index = register.toNat
    · subst hindex
      exact h.holds.trans hother.holds.symm
    · rw [h.others index hindex, hother.others index hindex]
  cases after
  cases other
  exact congrArg RegisterFile.mk hvalues

theorem Holds.unique {found : Int64} (h : file.Holds register value)
    (hfound : file.Holds register found) : value = found :=
  Option.some.inj (h.symm.trans hfound)

end RegisterFile

/-! ## Steps -/

namespace Machine

variable {machine after : Machine} {operation : Operation}

/-- What a machine comes to by an operation: its registers, the lines that it adds to the console,
and its counter. -/
inductive Performs (machine : Machine) : Operation → RegisterFile → List String → Nat → Prop
  | load {register : UInt64} {value : Int64} {registers : RegisterFile}
      (htakes : machine.registers.Takes register value registers) :
      Performs machine (.load register value) registers [] (machine.pc + 1)
  | arith {op : Arithmetic} {result op1 op2 : UInt64} {a b value : Int64}
      {registers : RegisterFile} (ha : machine.registers.Holds op1 a)
      (hb : machine.registers.Holds op2 b) (hvalue : op.Makes a b value)
      (htakes : machine.registers.Takes result value registers) :
      Performs machine (.arith op result op1 op2) registers [] (machine.pc + 1)
  | divZero {result op1 op2 : UInt64} (hb : machine.registers.Holds op2 0) :
      Performs machine (.arith .div result op1 op2) machine.registers
        ["Runtime Error: Division by zero"] (machine.pc + 1)
  | print {register : UInt64} {value : Int64} (h : machine.registers.Holds register value) :
      Performs machine (.print register) machine.registers [Numeral.ofInt value.toInt]
        (machine.pc + 1)
  | pass {register : UInt64} {target : String} (h : machine.registers.Holds register 0) :
      Performs machine (.branch register target) machine.registers [] (machine.pc + 1)
  | jump {register : UInt64} {target : String} {value : Int64} {index : Nat}
      (h : machine.registers.Holds register value) (htaken : value ≠ 0)
      (hbound : machine.labels.find? target = some index) :
      Performs machine (.branch register target) machine.registers [] index

/-- What a machine comes to is determined by what it was. -/
theorem Performs.unique {registers others : RegisterFile} {lines added : List String}
    {pc place : Nat} (h : machine.Performs operation registers lines pc)
    (hother : machine.Performs operation others added place) :
    registers = others ∧ lines = added ∧ pc = place := by
  cases h with
  | load htakes =>
      cases hother with
      | load hother => exact ⟨htakes.unique hother, rfl, rfl⟩
  | arith ha hb hvalue htakes =>
      cases hother with
      | arith ha' hb' hvalue' htakes' =>
          obtain rfl := ha.unique ha'
          obtain rfl := hb.unique hb'
          obtain rfl := Option.some.inj
            ((Arithmetic.makes_iff.1 hvalue).symm.trans (Arithmetic.makes_iff.1 hvalue'))
          exact ⟨htakes.unique htakes', rfl, rfl⟩
      | divZero hzero =>
          obtain rfl := hb.unique hzero
          exact absurd rfl hvalue.1
  | divZero hzero =>
      cases hother with
      | arith ha hb hvalue htakes =>
          obtain rfl := hb.unique hzero
          exact absurd rfl hvalue.1
      | divZero hzero => exact ⟨rfl, rfl, rfl⟩
  | print h =>
      cases hother with
      | print hother =>
          obtain rfl := h.unique hother
          exact ⟨rfl, rfl, rfl⟩
  | pass h =>
      cases hother with
      | pass hother => exact ⟨rfl, rfl, rfl⟩
      | jump hother htaken hbound => exact absurd (h.unique hother).symm htaken
  | jump h htaken hbound =>
      cases hother with
      | pass hother => exact absurd (h.unique hother) htaken
      | jump hother htaken' hbound' =>
          exact ⟨rfl, rfl, Option.some.inj (hbound.symm.trans hbound')⟩

/-- An operation that yields an effect performs it. -/
theorem performs_of_yields {effect : Effect} (instruction : Instruction)
    (h : operation.Yields machine.registers machine.labels effect) :
    ∃ lines, machine.Performs operation ((machine.fetched instruction).apply effect).registers lines
          ((machine.fetched instruction).apply effect).pc
      ∧ ((machine.fetched instruction).apply effect).console.lines.toList
        = machine.console.lines.toList ++ lines := by
  obtain ⟨log, hfetched⟩ := machine.fetched_eq instruction
  rw [hfetched]
  cases h with
  | load hregister =>
      exact ⟨[], .load (RegisterFile.takes_write hregister), (List.append_nil _).symm⟩
  | arith ha hb hvalue hresult =>
      exact ⟨[], .arith ha hb (Arithmetic.makes_iff.2 hvalue) (RegisterFile.takes_write hresult),
        (List.append_nil _).symm⟩
  | divZero ha hb => exact ⟨_, .divZero hb, Console.toList_addLine ..⟩
  | print h => exact ⟨_, .print h, Console.toList_addLine ..⟩
  | pass h => exact ⟨[], .pass h, (List.append_nil _).symm⟩
  | jump h htaken hfind => exact ⟨[], .jump h htaken hfind, (List.append_nil _).symm⟩

/-- A step that goes on performs the operation that its counter points at, and does nothing else.
The counter before it is in the program, whose size is a machine number, so that moving it to the
next instruction cannot overflow. -/
theorem step_performs (h : machine.step = (after, .continued)) :
    machine.pc + 1 ≤ machine.instructions.size
      ∧ ∃ instruction lines, machine.instructions[machine.pc]? = some instruction
        ∧ machine.Performs instruction.operation after.registers lines after.pc
        ∧ (∀ registers added pc, machine.Performs instruction.operation registers added pc →
            registers = after.registers ∧ added = lines ∧ pc = after.pc)
        ∧ after.console.lines.toList = machine.console.lines.toList ++ lines
        ∧ after.labels = machine.labels
        ∧ after.instructions = machine.instructions := by
  obtain ⟨-, hstep⟩ | ⟨instruction, effect, hfetch, heffect, hstep⟩ |
    ⟨instruction, error, -, -, hstep⟩ := machine.step_cases
  · rw [hstep] at h
    cases h
  · obtain ⟨hlabels, hinstructions, -⟩ := machine.step_frame
    rw [h] at hlabels hinstructions
    obtain rfl : (machine.fetched instruction).apply effect = after :=
      congrArg Prod.fst (hstep.symm.trans h)
    obtain ⟨lines, hperforms, hlines⟩ :=
      performs_of_yields instruction (Operation.effect_eq_ok_iff.1 heffect)
    exact ⟨(Array.getElem?_eq_some_iff.1 hfetch).1, instruction, lines, hfetch, hperforms,
      fun registers added pc hother => hother.unique hperforms, hlines, hlabels, hinstructions⟩
  · rw [hstep] at h
    cases h

/-- The quotient that is no word, put in the place of its dividend, and then a branch back. -/
def leastQuotient : Machine where
  registers := ⟨#[Int64.minValue, -1]⟩
  labels := ⟨[("a", 0)], by decide⟩
  instructions := #[⟨"a", .arith .div 0 0 1⟩, ⟨"", .branch 1 "a"⟩]

theorem step_performs_leastQuotient :
    let middle := leastQuotient.step.1
    leastQuotient.step = (middle, .continued) ∧ middle.step = (middle.step.1, .continued)
      ∧ leastQuotient.Performs (.arith .div 0 0 1) ⟨#[Int64.minValue, -1]⟩ [] 1
      ∧ middle.Performs (.branch 1 "a") ⟨#[Int64.minValue, -1]⟩ [] 0 := by
  intro middle
  have hquotient : leastQuotient.step = (middle, .continued) := by decide
  have hbranch : middle.step = (middle.step.1, .continued) := by decide
  obtain ⟨-, made, lines, hmade, hdivides, -, hlines, -⟩ := step_performs hquotient
  obtain ⟨-, jump, added, hjump, hjumps, -, hadded, -⟩ := step_performs hbranch
  obtain rfl : ⟨"a", .arith .div 0 0 1⟩ = made := Option.some.inj hmade
  obtain rfl : ⟨"", .branch 1 "a"⟩ = jump := Option.some.inj hjump
  obtain rfl : [] = lines := hlines
  obtain rfl : [] = added := hadded
  exact ⟨hquotient, hbranch, hdivides, hjumps⟩

end Machine

end RegisterMachine
