import RegisterMachine.Machine.Effect

/-!
# When an operation has an effect, and what stops it

An operation looks at registers one after the other and fails at the first that
is not there; a taken branch whose target is bound nowhere fails after that.
There is nothing else that it can fail with. `Operation.accesses` lists the
registers in the order in which the operation comes to them, and from this list
and the label table `FailsWith` tells the fault. When there is none, `Yields`
tells the effect. `effect_eq_error_iff` and `effect_eq_ok_iff` say that the two
relations are the function, so that proofs go by their constructors.

The list depends on the registers in one place. A division by zero is noticed
before its result is looked at, so that it hides a result that is not there. In
the same way a branch that is not taken hides an unbound target.
-/

namespace RegisterMachine

namespace RegisterFile

/-- There is such a register, and it holds the value. -/
def Holds (file : RegisterFile) (register : UInt64) (value : Int64) : Prop :=
  file.values[register.toNat]? = some value

instance (file : RegisterFile) (register : UInt64) (value : Int64) :
    Decidable (file.Holds register value) :=
  inferInstanceAs (Decidable (_ = _))

variable {file : RegisterFile} {register : UInt64} {value : Int64}

theorem exists_holds (h : register.toNat < file.size) : ∃ value, file.Holds register value :=
  ⟨_, Array.getElem?_eq_getElem h⟩

theorem Holds.get (h : file.Holds register value) : file.get register = .ok value := by
  rw [RegisterFile.get, show file.values[register.toNat]? = some value from h]

theorem Holds.lt_size (h : file.Holds register value) : register.toNat < file.size :=
  (Array.getElem?_eq_some_iff.1 h).1

theorem holds_write (value : Int64) (h : register.toNat < file.size) :
    (file.write register value).Holds register value :=
  Array.getElem?_setIfInBounds_self_of_lt h

theorem getElem?_write_of_ne {index : Nat} (value : Int64) (h : index ≠ register.toNat) :
    (file.write register value).values[index]? = file.values[index]? :=
  Array.getElem?_setIfInBounds_ne (Ne.symm h)

theorem check_eq_ok (h : register.toNat < file.size) : file.check register = .ok () :=
  if_pos h

theorem check_eq_error (h : file.size ≤ register.toNat) :
    file.check register = .error (file.outOfBounds register) :=
  if_neg (Nat.not_lt.2 h)

end RegisterFile

theorem Arithmetic.eval?_eq_none_iff {op : Arithmetic} {a b : Int64} :
    op.eval? a b = none ↔ op = .div ∧ b = 0 := by
  cases op <;> simp [eval?]

namespace LabelTable

variable {table : LabelTable} {label : String}

theorem find?_eq_none_iff : table.find? label = none ↔ label ∉ table.names := by
  rw [← Option.not_isSome_iff_eq_none, isSome_find?, contains, List.contains_iff_mem]

end LabelTable

namespace Operation

variable {registers : RegisterFile} {labels : LabelTable} {operation : Operation} {error : Error}

/-- The registers that an operation reads and writes, in the order in which it comes to them. -/
def accesses (registers : RegisterFile) : Operation → List UInt64
  | .load register _ => [register]
  | .arith op result op1 op2 =>
    if op = .div ∧ registers.Holds op2 0 then [op1, op2] else [op1, op2, result]
  | .print register => [register]
  | .branch register _ => [register]

/-- The first of some registers that is not there. -/
def firstMissing? (registers : RegisterFile) (accesses : List UInt64) : Option UInt64 :=
  accesses.find? fun register => decide (registers.size ≤ register.toNat)

/-- What stops an operation. -/
inductive FailsWith (registers : RegisterFile) (labels : LabelTable) (operation : Operation) :
    Error → Prop
  | register {register : UInt64}
      (hmissing : firstMissing? registers (operation.accesses registers) = some register) :
      FailsWith registers labels operation (.registerOutOfBounds register registers.size)
  | target {register : UInt64} {value : Int64} {target : String}
      (hbranch : operation = .branch register target) (hvalue : registers.Holds register value)
      (htaken : value ≠ 0) (hunbound : target ∉ labels.names) :
      FailsWith registers labels operation (.undefinedLabel target)

/-- What an operation comes to when nothing stops it. -/
inductive Yields (registers : RegisterFile) (labels : LabelTable) : Operation → Effect → Prop
  | load {register : UInt64} {value : Int64} (h : register.toNat < registers.size) :
      Yields registers labels (.load register value) (.store register value)
  | arith {op : Arithmetic} {result op1 op2 : UInt64} {a b value : Int64}
      (ha : registers.Holds op1 a) (hb : registers.Holds op2 b)
      (hvalue : op.eval? a b = some value) (hresult : result.toNat < registers.size) :
      Yields registers labels (.arith op result op1 op2) (.store result value)
  | divZero {result op1 op2 : UInt64} {a : Int64}
      (ha : registers.Holds op1 a) (hb : registers.Holds op2 0) :
      Yields registers labels (.arith .div result op1 op2) (.report .divisionByZero)
  | print {register : UInt64} {value : Int64} (h : registers.Holds register value) :
      Yields registers labels (.print register) (.print value)
  | pass {register : UInt64} {target : String} (h : registers.Holds register 0) :
      Yields registers labels (.branch register target) .pass
  | jump {register : UInt64} {value : Int64} {target : String} {index : Nat}
      (h : registers.Holds register value) (htaken : value ≠ 0)
      (hfind : labels.find? target = some index) :
      Yields registers labels (.branch register target) (.jump index)

/-! ## What an operation yields is its effect -/

/-- With a value to store, all that can still be missing is the register for it. -/
theorem effect_arith {op : Arithmetic} {result op1 op2 : UInt64} {a b value : Int64}
    (ha : registers.Holds op1 a) (hb : registers.Holds op2 b)
    (hvalue : op.eval? a b = some value) :
    (arith op result op1 op2).effect registers labels
      = registers.check result >>= fun _ => .ok (.store result value) := by
  simp only [effect, ha.get, hb.get, bind, Except.bind, hvalue]
  rfl

theorem effect_branch {register : UInt64} {value : Int64} (target : String)
    (h : registers.Holds register value) (htaken : value ≠ 0) :
    (branch register target).effect registers labels
      = labels.resolve target >>= fun index => .ok (.jump index) := by
  rw [effect, h.get]
  show (if value = 0 then _ else _) = _
  rw [if_neg htaken]
  rfl

theorem effect_unbound {register : UInt64} {value : Int64} {target : String}
    (h : registers.Holds register value) (htaken : value ≠ 0)
    (hfind : labels.find? target = none) :
    (branch register target).effect registers labels = .error (.undefinedLabel target) := by
  rw [effect_branch target h htaken, LabelTable.resolve, hfind]
  rfl

theorem Yields.effect_eq {effect : Effect} (h : operation.Yields registers labels effect) :
    operation.effect registers labels = .ok effect := by
  cases h with
  | load h =>
      rw [Operation.effect, RegisterFile.check_eq_ok h]
      rfl
  | arith ha hb hvalue hresult =>
      rw [effect_arith ha hb hvalue, RegisterFile.check_eq_ok hresult]
      rfl
  | divZero ha hb =>
      rw [Operation.effect, ha.get, hb.get]
      rfl
  | print h =>
      rw [Operation.effect, h.get]
      rfl
  | pass h =>
      rw [Operation.effect, h.get]
      rfl
  | jump h htaken hfind =>
      rw [effect_branch _ h htaken, LabelTable.resolve, hfind]
      rfl

/-! ## The fault -/

theorem op1_mem_accesses {op : Arithmetic} {result op1 op2 : UInt64} :
    op1 ∈ (arith op result op1 op2).accesses registers := by
  rw [accesses]
  split <;> simp

theorem op2_mem_accesses {op : Arithmetic} {result op1 op2 : UInt64} :
    op2 ∈ (arith op result op1 op2).accesses registers := by
  rw [accesses]
  split <;> simp

theorem exists_eval?_of_not_div_zero {op : Arithmetic} {op2 : UInt64} {b : Int64} (a : Int64)
    (hb : registers.Holds op2 b) (h : ¬ (op = .div ∧ registers.Holds op2 0)) :
    ∃ value, op.eval? a b = some value := by
  rw [← Option.ne_none_iff_exists', ne_eq, Arithmetic.eval?_eq_none_iff]
  rintro ⟨hop, rfl⟩
  exact h ⟨hop, hb⟩

theorem firstMissing?_cons (register : UInt64) (rest : List UInt64) :
    firstMissing? registers (register :: rest)
      = if registers.size ≤ register.toNat then some register
        else firstMissing? registers rest := by
  rw [firstMissing?, List.find?_cons]
  by_cases h : registers.size ≤ register.toNat
  · rw [decide_eq_true h, if_pos h]
  · rw [decide_eq_false h, if_neg h]
    rfl

theorem firstMissing?_arith {op : Arithmetic} {result op1 op2 : UInt64} :
    firstMissing? registers ((arith op result op1 op2).accesses registers)
      = if registers.size ≤ op1.toNat then some op1
        else if registers.size ≤ op2.toNat then some op2
        else if op = .div ∧ registers.Holds op2 0 then none
        else if registers.size ≤ result.toNat then some result else none := by
  rw [accesses]
  by_cases hzero : op = .div ∧ registers.Holds op2 0
  · rw [if_pos hzero, if_pos hzero, firstMissing?_cons, firstMissing?_cons]
    rfl
  · rw [if_neg hzero, if_neg hzero, firstMissing?_cons, firstMissing?_cons, firstMissing?_cons]
    rfl

theorem firstMissing?_eq_none_iff {accesses : List UInt64} :
    firstMissing? registers accesses = none
      ↔ ∀ register ∈ accesses, register.toNat < registers.size := by
  simp [firstMissing?]

theorem le_of_firstMissing? {accesses : List UInt64} {register : UInt64}
    (h : firstMissing? registers accesses = some register) :
    register ∈ accesses ∧ registers.size ≤ register.toNat :=
  ⟨List.mem_of_find?_eq_some h, by simpa using List.find?_some h⟩

theorem effect_of_missing {register : UInt64}
    (h : firstMissing? registers (operation.accesses registers) = some register) :
    operation.effect registers labels
      = .error (.registerOutOfBounds register registers.size) := by
  cases operation with
  | load named value =>
      obtain ⟨hmem, hsize⟩ := le_of_firstMissing? h
      obtain rfl := List.mem_singleton.1 hmem
      rw [effect, RegisterFile.check_eq_error hsize]
      rfl
  | arith op result op1 op2 =>
      -- The four splits are the four looks: op1, op2, the divisor, the result.
      rw [firstMissing?_arith] at h
      split at h
      · next h1 =>
          cases h
          rw [effect, RegisterFile.get_eq_error h1]
          rfl
      · next h1 =>
          obtain ⟨a, ha⟩ := RegisterFile.exists_holds (Nat.not_le.1 h1)
          split at h
          · next h2 =>
              cases h
              rw [effect, ha.get, RegisterFile.get_eq_error h2]
              rfl
          · next h2 =>
              obtain ⟨b, hb⟩ := RegisterFile.exists_holds (Nat.not_le.1 h2)
              split at h
              · cases h
              · next hdiv =>
                  obtain ⟨value, hvalue⟩ := exists_eval?_of_not_div_zero a hb hdiv
                  rw [effect_arith ha hb hvalue]
                  split at h
                  · next hresult =>
                      cases h
                      rw [RegisterFile.check_eq_error hresult]
                      rfl
                  · cases h
  | print named =>
      obtain ⟨hmem, hsize⟩ := le_of_firstMissing? h
      obtain rfl := List.mem_singleton.1 hmem
      rw [effect, RegisterFile.get_eq_error hsize]
      rfl
  | branch named target =>
      obtain ⟨hmem, hsize⟩ := le_of_firstMissing? h
      obtain rfl := List.mem_singleton.1 hmem
      rw [effect, RegisterFile.get_eq_error hsize]
      rfl

/-- With all registers there, an operation yields an effect, unless it is a taken branch that leads
nowhere. -/
theorem yields_of_present (labels : LabelTable)
    (h : ∀ register ∈ operation.accesses registers, register.toNat < registers.size) :
    (∃ effect, operation.Yields registers labels effect)
      ∨ ∃ register value target, operation = .branch register target
          ∧ registers.Holds register value ∧ value ≠ 0 ∧ target ∉ labels.names
          ∧ operation.effect registers labels = .error (.undefinedLabel target) := by
  cases operation with
  | load register value => exact .inl ⟨_, .load (h register List.mem_cons_self)⟩
  | arith op result op1 op2 =>
      obtain ⟨a, ha⟩ := RegisterFile.exists_holds (h op1 op1_mem_accesses)
      obtain ⟨b, hb⟩ := RegisterFile.exists_holds (h op2 op2_mem_accesses)
      by_cases hdiv : op = .div ∧ registers.Holds op2 0
      · obtain ⟨rfl, hzero⟩ := hdiv
        exact .inl ⟨_, .divZero ha hzero⟩
      · obtain ⟨value, hvalue⟩ := exists_eval?_of_not_div_zero a hb hdiv
        have hresult := h result (by rw [accesses, if_neg hdiv]; simp)
        exact .inl ⟨_, .arith ha hb hvalue hresult⟩
  | print register =>
      obtain ⟨value, hvalue⟩ := RegisterFile.exists_holds (h register List.mem_cons_self)
      exact .inl ⟨_, .print hvalue⟩
  | branch register target =>
      obtain ⟨value, hvalue⟩ := RegisterFile.exists_holds (h register List.mem_cons_self)
      by_cases htaken : value = 0
      · subst htaken
        exact .inl ⟨_, .pass hvalue⟩
      · cases hfind : labels.find? target with
        | some index => exact .inl ⟨_, .jump hvalue htaken hfind⟩
        | none =>
            exact .inr ⟨register, value, target, rfl, hvalue, htaken,
              LabelTable.find?_eq_none_iff.1 hfind, effect_unbound hvalue htaken hfind⟩

/-! ## The two relations are the function -/

theorem effect_eq_ok_iff {effect : Effect} :
    operation.effect registers labels = .ok effect
      ↔ operation.Yields registers labels effect := by
  refine ⟨fun h => ?_, Yields.effect_eq⟩
  cases hfirst : firstMissing? registers (operation.accesses registers) with
  | some register =>
      rw [effect_of_missing hfirst] at h
      cases h
  | none =>
      obtain ⟨other, hyields⟩ | ⟨-, -, target, -, -, -, -, heffect⟩ :=
        yields_of_present labels (firstMissing?_eq_none_iff.1 hfirst)
      · rw [hyields.effect_eq] at h
        cases h
        exact hyields
      · rw [heffect] at h
        cases h

theorem FailsWith.effect_eq (h : operation.FailsWith registers labels error) :
    operation.effect registers labels = .error error := by
  cases h with
  | register hmissing => exact effect_of_missing hmissing
  | target hbranch hvalue htaken hunbound =>
      subst hbranch
      exact effect_unbound hvalue htaken (LabelTable.find?_eq_none_iff.2 hunbound)

theorem effect_eq_error_iff :
    operation.effect registers labels = .error error
      ↔ operation.FailsWith registers labels error := by
  refine ⟨fun h => ?_, FailsWith.effect_eq⟩
  cases hfirst : firstMissing? registers (operation.accesses registers) with
  | some register =>
      rw [effect_of_missing hfirst] at h
      cases h
      exact .register hfirst
  | none =>
      obtain ⟨effect, hyields⟩ | ⟨register, value, target, hbranch, hvalue, htaken, hunbound,
        heffect⟩ := yields_of_present labels (firstMissing?_eq_none_iff.1 hfirst)
      · rw [hyields.effect_eq] at h
        cases h
      · rw [heffect] at h
        cases h
        exact .target hbranch hvalue htaken hunbound

end Operation

end RegisterMachine
