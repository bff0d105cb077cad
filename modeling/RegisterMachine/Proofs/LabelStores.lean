import RegisterMachine.Proofs.History
import Mathlib.Logic.Function.Basic

/-!
# A label table in two stores

A label table is one list of bindings here, and a look-up goes through the list.
Whoever wants a fast look-up and the order of definition keeps two stores, the
labels in their order and a map from labels to indices, and then every edit has
to reach both. A label that is listed without an index, or listed twice, is what
comes of an edit that reaches one of them only.

`LabelStores` is a table kept that way, with edits that decide by the map alone
whether a label is new. The observation is that `ofTable`, which takes a table
apart, goes through every edit: the parts of an edited table are the edited
parts (`define_ofTable`, `rebind_ofTable`). So the stores stay the two halves of
one table, whatever is done to them, and a table has no such faults.
-/

namespace RegisterMachine

namespace LabelTable

variable {table : LabelTable} {label : String}

theorem isSome_find?_iff : (table.find? label).isSome ↔ label ∈ table.names := by
  rw [isSome_find?, contains, List.contains_iff_mem]

theorem mem_names_iff : label ∈ table.names ↔ ∃ index, table.find? label = some index := by
  rw [← isSome_find?_iff, Option.isSome_iff_exists]

end LabelTable

/-- Labels in the order of their definition, and beside them a map to their indices. -/
structure LabelStores where
  order : List String
  positions : String → Option Nat

namespace LabelStores

def ofTable (table : LabelTable) : LabelStores :=
  ⟨table.names, table.find?⟩

def empty : LabelStores :=
  ⟨[], fun _ => none⟩

def define (stores : LabelStores) (label : String) (index : Nat) : Except Error LabelStores :=
  if (stores.positions label).isSome then .error (.duplicateLabel label)
  else .ok ⟨stores.order ++ [label], Function.update stores.positions label (some index)⟩

/-- Puts the index into the map first, and lists the label if it was not there. -/
def rebind (stores : LabelStores) (label : String) (index : Nat) : LabelStores where
  order := if (stores.positions label).isNone then stores.order ++ [label] else stores.order
  positions := Function.update stores.positions label (some index)

/-- Does to the stores what an act does to a table. An edit that is refused does nothing. -/
def perform (stores : LabelStores) : Act → LabelStores
  | .define label index =>
    match stores.define label index with
    | .ok after => after
    | .error _ => stores
  | .rebind label index => stores.rebind label index
  | .unbindAll => empty
  | _ => stores

variable {table : LabelTable} {label : String} {index : Nat}

/-! ## The parts of an edited table -/

theorem ofTable_append (hfresh : label ∉ table.names) :
    ofTable (table.append label index hfresh)
      = ⟨table.names ++ [label], Function.update table.find? label (some index)⟩ := by
  rw [ofTable, LabelTable.names_append]
  congr
  funext name
  rw [LabelTable.find?_append, Function.update_apply]

theorem define_ofTable :
    (ofTable table).define label index = (table.define label index).map ofTable := by
  by_cases hbound : label ∈ table.names
  · rw [define, ofTable, if_pos (LabelTable.isSome_find?_iff.2 hbound), LabelTable.define,
      dif_pos hbound]
    rfl
  · rw [define, ofTable, if_neg (mt LabelTable.isSome_find?_iff.1 hbound), LabelTable.define,
      dif_neg hbound, ← ofTable_append hbound]
    rfl

theorem rebind_ofTable :
    (ofTable table).rebind label index = ofTable (table.rebind label index) := by
  have hpositions : Function.update table.find? label (some index)
      = (table.rebind label index).find? := by
    funext name
    rw [LabelTable.find?_rebind, Function.update_apply]
  rw [rebind, ofTable, ofTable, hpositions]
  congr
  by_cases hbound : label ∈ table.names
  · have hsome := LabelTable.isSome_find?_iff.2 hbound
    simp [LabelTable.rebind, hbound, ← Option.not_isSome, hsome]
  · have hnone := mt LabelTable.isSome_find?_iff.1 hbound
    simp [LabelTable.rebind, hbound, ← Option.not_isSome, hnone]

/-! ## The stores along with a machine -/

theorem perform_ofTable (machine : Machine) (act : Act) :
    (ofTable machine.labels).perform act = ofTable (machine.perform act).1.labels := by
  cases hedits : act.editsLabels with
  | false =>
      rw [Machine.labels_perform hedits]
      cases act <;> first | rfl | cases hedits
  | true =>
      cases act with
      | define label index =>
          rw [perform, Machine.perform, define_ofTable]
          cases machine.labels.define label index <;> rfl
      | rebind label index => exact rebind_ofTable
      | unbindAll => rfl
      | step | execute _ | write _ _ | clear | goto _ | reset => cases hedits

end LabelStores

end RegisterMachine
