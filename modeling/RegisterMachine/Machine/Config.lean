import RegisterMachine.RegisterFile
import RegisterMachine.Text.Blank

/-!
# Configuring a machine

How many registers a machine has, and whether it logs what it executes. The
count may be given as text, by the environment or on the command line; it is a
numeral that may have blanks around it, and at least one.
-/

namespace RegisterMachine

/-- The choices that a machine is built by. -/
structure Config where
  registers : Nat := RegisterFile.defaultCount
  trace : Bool := false
  deriving DecidableEq, Repr, Inhabited

namespace Config

/-- The number of registers that a text asks for. -/
def registerCount (text : String) : Except Error Nat :=
  match Numeral.unsigned? (Text.trim text.toList) with
  | some count => if count = 0 then .error (.invalidRegisterCount text) else .ok count.toNat
  | none => .error (.invalidRegisterCount text)

/-- The configuration of a machine when nothing but the environment has a say; its variable may be
unset. -/
def ofEnvironment (registers : Option String) : Except Error Config :=
  match registers with
  | none => .ok {}
  | some text => do
    let registers ← registerCount text
    return { registers }

/-- Passes if the configuration is one to build a machine by. Whether there can be so many registers
is not looked at. -/
def validate (config : Config) : Except Error Unit :=
  if config.registers = 0 then .error .noRegisters else .ok ()

/-- A count that was read is positive. -/
theorem registerCount_pos {text : String} {count : Nat}
    (h : registerCount text = .ok count) : 0 < count := by
  unfold registerCount at h
  split at h
  · split at h
    · cases h
    · next word _ hnonzero =>
        cases h
        refine Nat.pos_of_ne_zero fun hzero => hnonzero ?_
        exact UInt64.toNat_inj.1 hzero
  · cases h

end Config

end RegisterMachine
