import RegisterMachine.Error

/-!
# The label table

Which label stands for which place in the program. A table is a list of
bindings in the order in which the labels were first bound; no label is bound
twice, and binding one anew changes its place in the program but not its place
in the list. An index may point anywhere, also past the end of the program.
-/

namespace RegisterMachine

/-- Labels and the indices that they stand for, in the order of their definition. -/
structure LabelTable where
  bindings : List (String × Nat) := []
  nodup : (bindings.map Prod.fst).Nodup := by exact List.nodup_nil
  deriving DecidableEq, Repr

namespace LabelTable

instance : Inhabited LabelTable :=
  ⟨{}⟩

/-- The labels, in the order of their definition. -/
def names (table : LabelTable) : List String :=
  table.bindings.map Prod.fst

/-- The table without any binding. -/
def empty : LabelTable :=
  {}

/-- Whether a label is bound. -/
def contains (table : LabelTable) (label : String) : Bool :=
  table.names.contains label

/-- The index that a label stands for, if it is bound. -/
def find? (table : LabelTable) (label : String) : Option Nat :=
  table.bindings.lookup label

/-- The index that a label stands for. -/
def resolve (table : LabelTable) (label : String) : Except Error Nat :=
  match table.find? label with
  | some index => .ok index
  | none => .error (.undefinedLabel label)

/-- Appends a binding for a label that has none. -/
def append (table : LabelTable) (label : String) (index : Nat) (hfresh : label ∉ table.names) :
    LabelTable where
  bindings := table.bindings ++ [(label, index)]
  nodup := by
    rw [List.map_append, List.nodup_append]
    refine ⟨table.nodup, by simp, ?_⟩
    intro name hbound other hnew hsame
    rw [List.map_singleton, List.mem_singleton] at hnew
    subst hsame hnew
    exact hfresh hbound

/-- Gives a bound label another index; the order stays. -/
def move (table : LabelTable) (label : String) (index : Nat) : LabelTable where
  bindings := table.bindings.map fun binding =>
    if binding.1 = label then (binding.1, index) else binding
  nodup := by
    have hsame : Prod.fst ∘ (fun binding : String × Nat =>
        if binding.1 = label then (binding.1, index) else binding) = Prod.fst := by
      funext binding
      simp only [Function.comp_apply]
      split <;> rfl
    rw [List.map_map, hsame]
    exact table.nodup

/-- Binds a new label. A label that is bound already is a fault. -/
def define (table : LabelTable) (label : String) (index : Nat) : Except Error LabelTable :=
  if hbound : label ∈ table.names then .error (.duplicateLabel label)
  else .ok (table.append label index hbound)

/-- Binds a label whether or not it is bound already. -/
def rebind (table : LabelTable) (label : String) (index : Nat) : LabelTable :=
  if hbound : label ∈ table.names then table.move label index
  else table.append label index hbound

/-- The table as listings show it, with each label before the index that it stands for. -/
def display (table : LabelTable) : String :=
  "(" ++ ", ".intercalate (table.bindings.map fun (label, index) =>
    label ++ "@" ++ Numeral.ofNat index) ++ ")"

@[simp] theorem names_append (table : LabelTable) (label : String) (index : Nat)
    (hfresh : label ∉ table.names) :
    (table.append label index hfresh).names = table.names ++ [label] := by
  simp [names, append]

@[simp] theorem names_move (table : LabelTable) (label : String) (index : Nat) :
    (table.move label index).names = table.names := by
  simp only [names, move, List.map_map]
  refine List.map_congr_left fun binding _ => ?_
  simp only [Function.comp_apply]
  split <;> rfl

theorem find?_append (table : LabelTable) (label : String) (index : Nat)
    (hfresh : label ∉ table.names) (name : String) :
    (table.append label index hfresh).find? name
      = if name = label then some index else table.find? name := by
  have hmissing : table.bindings.lookup label = none := by
    rw [List.lookup_eq_none_iff]
    intro binding hmember
    rw [bne_iff_ne]
    rintro rfl
    exact hfresh (List.mem_map_of_mem hmember)
  simp only [find?, append, List.lookup_append, List.lookup_cons, List.lookup_nil]
  by_cases hsame : name = label
  · subst hsame
    simp [hmissing]
  · rw [beq_eq_false_iff_ne.2 hsame, if_neg hsame, Option.or_none]

/-- Giving a label another index is seen at that label. -/
theorem lookup_map_self {label : String} (index : Nat) {bindings : List (String × Nat)}
    (hbound : label ∈ bindings.map Prod.fst) :
    (bindings.map fun binding =>
      if binding.1 = label then (binding.1, index) else binding).lookup label = some index := by
  induction bindings with
  | nil => cases hbound
  | cons binding bindings ih =>
      rw [List.map_cons, List.lookup_cons]
      by_cases hmoved : binding.1 = label
      · simp [hmoved]
      · have hlater := (List.mem_cons.1 hbound).resolve_left fun hhit => hmoved hhit.symm
        rw [if_neg hmoved, beq_eq_false_iff_ne.2 (Ne.symm hmoved)]
        exact ih hlater

/-- Giving a label another index is not seen at any other label. -/
theorem lookup_map_of_ne {label name : String} (index : Nat) (hother : name ≠ label)
    (bindings : List (String × Nat)) :
    (bindings.map fun binding =>
      if binding.1 = label then (binding.1, index) else binding).lookup name
        = bindings.lookup name := by
  induction bindings with
  | nil => rfl
  | cons binding bindings ih =>
      rw [List.map_cons, List.lookup_cons, List.lookup_cons, ih]
      by_cases hmoved : binding.1 = label
      · rw [if_pos hmoved, hmoved, beq_eq_false_iff_ne.2 hother]
      · rw [if_neg hmoved]

theorem find?_move {table : LabelTable} {label : String} (index : Nat)
    (hbound : label ∈ table.names) (name : String) :
    (table.move label index).find? name
      = if name = label then some index else table.find? name := by
  split
  · next hsame =>
      subst hsame
      exact lookup_map_self index hbound
  · next hother => exact lookup_map_of_ne index hother table.bindings

/-- After a label has been bound, it stands for the new index, and all others for what they did. -/
theorem find?_rebind (table : LabelTable) (label : String) (index : Nat) (name : String) :
    (table.rebind label index).find? name
      = if name = label then some index else table.find? name := by
  unfold rebind
  split
  · next hbound => exact find?_move index hbound name
  · next hfresh => exact find?_append table label index hfresh name

/-- Only bound labels are found. -/
theorem isSome_find? (table : LabelTable) (label : String) :
    (table.find? label).isSome = table.contains label := by
  unfold find? contains names
  induction table.bindings with
  | nil => rfl
  | cons binding bindings ih =>
      rw [List.lookup_cons, List.map_cons, List.contains_cons]
      by_cases h : label == binding.1
      · simp [h]
      · simp only [h, Bool.false_or]
        exact ih

end LabelTable

end RegisterMachine
