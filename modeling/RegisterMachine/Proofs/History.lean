import RegisterMachine.Proofs.Effects
import RegisterMachine.Proofs.ProgramIndex
import RegisterMachine.Proofs.Stepping
import Mathlib.Data.List.Induction

/-!
# What is done to a machine, and what that leaves its labels at

Between two steps the owner of a machine may write its registers, set its
counter, start it over, execute instructions of his own, and edit its label
table. An `Act` is one such thing or a step, and a `Deed` is an act with what
came of it, since an edit may be refused.

Which index a label stands for after a number of acts can be told from the deeds
alone. `Current` does so and knows nothing of a table: the last deed to bind the
label counts, unless the labels were cleared after it. `find?_performAll` says
that this is what a look-up finds. Steps and executed instructions have no part
in it, because no effect reaches the table.
-/

namespace RegisterMachine

/-- What can be done with a machine. -/
inductive Act
  | step
  /-- Executes an instruction, which need not be one of the program. -/
  | execute (instruction : Instruction)
  | write (register : UInt64) (value : Int64)
  /-- Zero in all registers. -/
  | clear
  | goto (index : Nat)
  | reset
  | define (label : String) (index : Nat)
  | rebind (label : String) (index : Nat)
  /-- Unbinds every label. -/
  | unbindAll
  deriving DecidableEq, Repr

/-- Whether an act edits the label table. -/
def Act.editsLabels : Act → Bool
  | define .. | rebind .. | unbindAll => true
  | _ => false

def Outcome.fault? : Outcome → Option Error
  | failed error => some error
  | _ => none

namespace Machine

/-- Does an act. An act that is refused leaves the machine as it is, a failing step apart. -/
def perform (machine : Machine) : Act → Machine × Option Error
  | .step => (machine.step.1, machine.step.2.fault?)
  | .execute instruction => machine.execute instruction
  | .write register value =>
    match machine.registers.set register value with
    | .ok registers => ({ machine with registers }, none)
    | .error error => (machine, some error)
  | .clear => ({ machine with registers := machine.registers.clear }, none)
  | .goto index => ({ machine with pc := index }, none)
  | .reset => (machine.reset, none)
  | .define label index =>
    match machine.labels.define label index with
    | .ok labels => ({ machine with labels }, none)
    | .error error => (machine, some error)
  | .rebind label index => ({ machine with labels := machine.labels.rebind label index }, none)
  | .unbindAll => ({ machine with labels := .empty }, none)

def performAll (machine : Machine) (acts : List Act) : Machine :=
  acts.foldl (fun machine act => (machine.perform act).1) machine

end Machine

/-- An act, and the fault that it met, if it met one. -/
structure Deed where
  act : Act
  fault : Option Error
  deriving DecidableEq, Repr

namespace Deed

/-- The label that a deed has bound, and the index that it has bound it to. -/
def binding? : Deed → Option (String × Nat)
  | ⟨.define label index, none⟩ => some (label, index)
  | ⟨.rebind label index, _⟩ => some (label, index)
  | _ => none

theorem binding?_define (label : String) (index : Nat) :
    binding? ⟨.define label index, none⟩ = some (label, index) :=
  rfl

theorem binding?_rebind (label : String) (index : Nat) (fault : Option Error) :
    binding? ⟨.rebind label index, fault⟩ = some (label, index) := by
  cases fault <;> rfl

/-- What a label stood for before the deed counts no longer. -/
def Supersedes (deed : Deed) (label : String) : Prop :=
  deed.act = .unbindAll ∨ ∃ index, deed.binding? = some (label, index)

end Deed

/-- The deeds of a machine that does one act after the other. -/
def Machine.history (machine : Machine) : List Act → List Deed
  | [] => []
  | act :: acts => ⟨act, (machine.perform act).2⟩ :: (machine.perform act).1.history acts

/-- The index that a label stands for after some deeds: that of the last deed to bind it since the
labels were last cleared, or the one that it was loaded with. -/
inductive Current (loaded : LabelTable) (deeds : List Deed) (label : String) (index : Nat) : Prop
  | deed {earlier later : List Deed} {deed : Deed} (hdeeds : deeds = earlier ++ deed :: later)
      (hbinds : deed.binding? = some (label, index))
      (hlast : ∀ other ∈ later, ¬ other.Supersedes label)
  | loaded (hbound : (label, index) ∈ loaded.bindings)
      (hlast : ∀ other ∈ deeds, ¬ other.Supersedes label)

namespace Machine

variable {machine : Machine}

/-! ## One act -/

theorem labels_perform {act : Act} (h : act.editsLabels = false) :
    (machine.perform act).1.labels = machine.labels := by
  cases act with
  | step => exact machine.step_frame.1
  | execute instruction => exact (machine.execute_frame instruction).1
  | write register value =>
      rw [perform]
      split <;> rfl
  | clear => rfl
  | goto index => rfl
  | reset => rfl
  | define label index => cases h
  | rebind label index => cases h
  | unbindAll => cases h

theorem instructions_perform (machine : Machine) (act : Act) :
    (machine.perform act).1.instructions = machine.instructions := by
  cases act with
  | step => exact machine.step_frame.2.1
  | execute instruction => exact (machine.execute_frame instruction).2.1
  | write register value =>
      rw [perform]
      split <;> rfl
  | clear => rfl
  | goto index => rfl
  | reset => rfl
  | define label index =>
      rw [perform]
      split <;> rfl
  | rebind label index => rfl
  | unbindAll => rfl

theorem binding?_of_not_edits {act : Act} (h : act.editsLabels = false) (fault : Option Error) :
    Deed.binding? ⟨act, fault⟩ = none := by
  cases act <;> first | rfl | cases h

/-- A deed that has bound a label supersedes what the label stood for, and nothing else. -/
theorem binds_iff {deed : Deed} {name label : String} {place index : Nat} {before : Option Nat}
    (hbinds : deed.binding? = some (name, place)) :
    (if label = name then some place else before) = some index
      ↔ deed.binding? = some (label, index) ∨ (before = some index ∧ ¬ deed.Supersedes label) := by
  have hact : deed.act ≠ .unbindAll := by
    rintro h
    obtain ⟨act, fault⟩ := deed
    subst h
    cases hbinds
  rw [Deed.Supersedes, hbinds]
  by_cases hname : label = name
  · subst hname
    simp
  · have hother : name ≠ label := Ne.symm hname
    simp [hname, hother, hact]

theorem perform_define_bound {name : String} (place : Nat) (hbound : name ∈ machine.labels.names) :
    machine.perform (.define name place) = (machine, some (.duplicateLabel name)) := by
  rw [perform, LabelTable.define, dif_pos hbound]

theorem perform_define_fresh {name : String} (place : Nat) (hfresh : name ∉ machine.labels.names) :
    machine.perform (.define name place)
      = ({ machine with labels := machine.labels.append name place hfresh }, none) := by
  rw [perform, LabelTable.define, dif_neg hfresh]

theorem find?_perform (machine : Machine) (act : Act) (label : String) (index : Nat) :
    (machine.perform act).1.labels.find? label = some index
      ↔ Deed.binding? ⟨act, (machine.perform act).2⟩ = some (label, index)
        ∨ (machine.labels.find? label = some index
          ∧ ¬ Deed.Supersedes ⟨act, (machine.perform act).2⟩ label) := by
  cases hedits : act.editsLabels with
  | false =>
      have hact : act ≠ .unbindAll := by
        rintro rfl
        cases hedits
      rw [labels_perform hedits, Deed.Supersedes, binding?_of_not_edits hedits]
      simp [hact]
  | true =>
      cases act with
      | define name place =>
          by_cases hbound : name ∈ machine.labels.names
          · rw [perform_define_bound place hbound]
            simp [Deed.binding?, Deed.Supersedes]
          · rw [perform_define_fresh place hbound]
            show (machine.labels.append name place hbound).find? label = some index ↔ _
            rw [LabelTable.find?_append]
            exact binds_iff (Deed.binding?_define name place)
      | rebind name place =>
          rw [perform]
          show (machine.labels.rebind name place).find? label = some index ↔ _
          rw [LabelTable.find?_rebind]
          exact binds_iff (Deed.binding?_rebind name place none)
      | unbindAll =>
          simp [perform, LabelTable.find?, LabelTable.empty, Deed.binding?, Deed.Supersedes]
      | step | execute _ | write _ _ | clear | goto _ | reset => cases hedits

/-! ## Many acts -/

theorem performAll_append (acts : List Act) (act : Act) :
    machine.performAll (acts ++ [act]) = ((machine.performAll acts).perform act).1 := by
  rw [performAll, List.foldl_append]
  rfl

theorem history_append (acts : List Act) (act : Act) :
    ∀ machine : Machine, machine.history (acts ++ [act])
      = machine.history acts ++ [⟨act, ((machine.performAll acts).perform act).2⟩] := by
  induction acts with
  | nil => exact fun machine => rfl
  | cons first rest ih =>
      intro machine
      rw [List.cons_append, history, history, ih]
      rfl

theorem performAll_induction {P : Machine → Prop} {allowed : Act → Prop}
    (hperform : ∀ machine act, allowed act → P machine → P (machine.perform act).1)
    {acts : List Act} (hacts : ∀ act ∈ acts, allowed act) (h : P machine) :
    P (machine.performAll acts) := by
  induction acts generalizing machine with
  | nil => exact h
  | cons act acts ih =>
      rw [List.forall_mem_cons] at hacts
      exact ih hacts.2 (hperform machine act hacts.1 h)

theorem instructions_performAll (acts : List Act) :
    ∀ machine : Machine, (machine.performAll acts).instructions = machine.instructions := by
  induction acts with
  | nil => exact fun machine => rfl
  | cons act acts ih =>
      intro machine
      show ((machine.perform act).1.performAll acts).instructions = machine.instructions
      rw [ih, instructions_perform]

theorem current_append_iff {loaded : LabelTable} {deeds : List Deed} {deed : Deed} {label : String}
    {index : Nat} :
    Current loaded (deeds ++ [deed]) label index
      ↔ deed.binding? = some (label, index)
        ∨ (Current loaded deeds label index ∧ ¬ deed.Supersedes label) := by
  have hforall : ∀ before : List Deed, (∀ other ∈ before ++ [deed], ¬ other.Supersedes label)
      ↔ (∀ other ∈ before, ¬ other.Supersedes label) ∧ ¬ deed.Supersedes label := by
    intro before
    rw [List.forall_mem_append, List.forall_mem_singleton]
  constructor
  · intro h
    cases h with
    | @deed earlier later last hdeeds hbinds hlast =>
        -- The deed that counts is the newest itself, or has the newest among those after it.
        rcases List.eq_nil_or_concat later with rfl | ⟨middle, newest, rfl⟩
        · obtain ⟨-, hsame⟩ := List.append_inj' hdeeds rfl
          obtain rfl := List.singleton_inj.1 hsame
          exact .inl hbinds
        · rw [List.concat_eq_append] at hdeeds hlast
          rw [← List.cons_append, ← List.append_assoc] at hdeeds
          obtain ⟨hbefore, hsame⟩ := List.append_inj' hdeeds rfl
          obtain rfl := List.singleton_inj.1 hsame
          rw [hforall] at hlast
          exact .inr ⟨.deed hbefore hbinds hlast.1, hlast.2⟩
    | loaded hbound hlast =>
        rw [hforall] at hlast
        exact .inr ⟨.loaded hbound hlast.1, hlast.2⟩
  · rintro (hbinds | ⟨h, hlater⟩)
    · exact .deed rfl hbinds (List.forall_mem_nil _)
    · cases h with
      | @deed earlier later last hdeeds hbinds hlast =>
          have hcut : deeds ++ [deed] = earlier ++ last :: (later ++ [deed]) := by
            rw [hdeeds, List.append_assoc]
            rfl
          exact .deed hcut hbinds ((hforall _).2 ⟨hlast, hlater⟩)
      | loaded hbound hlast => exact .loaded hbound ((hforall _).2 ⟨hlast, hlater⟩)

/-- A label stands for the index that the deeds so far have left it at. -/
theorem find?_performAll (machine : Machine) (acts : List Act) (label : String) (index : Nat) :
    (machine.performAll acts).labels.find? label = some index
      ↔ Current machine.labels (machine.history acts) label index := by
  induction acts using List.reverseRecOn with
  | nil =>
      rw [performAll, List.foldl_nil, history, LabelTable.find?_eq_some_iff]
      constructor
      · exact fun h => .loaded h (List.forall_mem_nil _)
      · intro h
        cases h with
        | deed hdeeds => simp at hdeeds
        | loaded hbound => exact hbound
  | append_singleton acts act ih =>
      rw [performAll_append, history_append, find?_perform, ih, current_append_iff]

end Machine

end RegisterMachine
