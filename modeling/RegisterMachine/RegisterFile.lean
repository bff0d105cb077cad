import RegisterMachine.Error

/-!
# The register file

A fixed number of registers, each holding a signed word of sixty-four bits and
zero to begin with. Reading or writing a register that is not there is a fault
that names it and tells how many there are.

The registers stand side by side in memory, and there are addresses for so many
and no more (`limit`). Whether the memory that is there is enough for a number
below that is not asked here.
-/

namespace RegisterMachine

/-- The contents of the registers. -/
structure RegisterFile where
  values : Array Int64
  deriving DecidableEq, Repr, Inhabited

namespace RegisterFile

/-- The number of registers of a machine that is not told otherwise. -/
def defaultCount : Nat :=
  32

/-- The number of registers that is just too great. Each of them takes eight bytes, and all together
have to take less than half of what a word can address. -/
def limit : Nat :=
  UInt64.size / 2 / 8

/-- Registers that all hold zero. -/
def zeros (count : Nat) : RegisterFile :=
  ⟨Array.replicate count 0⟩

/-- Makes registers that all hold zero, unless there cannot be so many. -/
def new? (count : Nat) : Option RegisterFile :=
  if count < limit then some (zeros count) else none

/-- The number of registers. -/
def size (file : RegisterFile) : Nat :=
  file.values.size

/-- The fault of naming a register that is not there. -/
def outOfBounds (file : RegisterFile) (register : UInt64) : Error :=
  .registerOutOfBounds register file.size

/-- Passes if there is such a register. -/
def check (file : RegisterFile) (register : UInt64) : Except Error Unit :=
  if register.toNat < file.size then .ok () else .error (file.outOfBounds register)

/-- The contents of a register. -/
def get (file : RegisterFile) (register : UInt64) : Except Error Int64 :=
  match file.values[register.toNat]? with
  | some value => .ok value
  | none => .error (file.outOfBounds register)

/-- The registers after a write to one of them. A write to no register changes nothing. -/
def write (file : RegisterFile) (register : UInt64) (value : Int64) : RegisterFile :=
  ⟨file.values.setIfInBounds register.toNat value⟩

/-- Writes a register that has to be there. -/
def set (file : RegisterFile) (register : UInt64) (value : Int64) :
    Except Error RegisterFile := do
  file.check register
  return file.write register value

/-- As many registers, all zero. -/
def clear (file : RegisterFile) : RegisterFile :=
  zeros file.size

/-- All registers with their contents, as snapshots show them. -/
def display (file : RegisterFile) : String :=
  "registers" ++ String.join (file.values.toList.zipIdx.map fun (value, index) =>
    " " ++ Numeral.ofNat index ++ "=" ++ Numeral.ofInt value.toInt)

@[simp] theorem size_zeros (count : Nat) : (zeros count).size = count := by
  simp [size, zeros]

@[simp] theorem size_write (file : RegisterFile) (register : UInt64) (value : Int64) :
    (file.write register value).size = file.size := by
  simp [size, write]

@[simp] theorem size_clear (file : RegisterFile) : file.clear.size = file.size := by
  simp [clear]

theorem get_eq_ok {file : RegisterFile} {register : UInt64}
    (h : register.toNat < file.values.size) :
    file.get register = .ok file.values[register.toNat] := by
  rw [get, Array.getElem?_eq_getElem h]

theorem get_eq_error {file : RegisterFile} {register : UInt64} (h : file.size ≤ register.toNat) :
    file.get register = .error (file.outOfBounds register) := by
  rw [get, Array.getElem?_eq_none h]

/-- A written register holds what was written. -/
theorem get_write_self {file : RegisterFile} {register : UInt64} (value : Int64)
    (h : register.toNat < file.size) : (file.write register value).get register = .ok value := by
  have hinside : register.toNat < (file.write register value).values.size := by
    rw [write, Array.size_setIfInBounds]
    exact h
  rw [get_eq_ok hinside]
  simp [write]

/-- A write leaves the other registers alone. -/
theorem get_write_of_ne (file : RegisterFile) {register other : UInt64} (value : Int64)
    (h : register ≠ other) : (file.write register value).get other = file.get other := by
  have hapart : register.toNat ≠ other.toNat := fun hsame => h (UInt64.toNat_inj.1 hsame)
  simp only [get, write, outOfBounds, size, Array.size_setIfInBounds,
    Array.getElem?_setIfInBounds_ne hapart]

end RegisterFile

end RegisterMachine
