import RegisterMachine.Proofs.LabelStores
import RegisterMachine.Proofs.Ledger
import Mathlib.Data.Set.Card

/-!
# A label table is an ordered map

A table is filled by definitions and rebindings, and emptied by a reset. What it
tells after any number of them can be told from a ledger in which every edit that
is not refused makes an entry and a reset leaves none. A label stands for the
index of its last entry, and its place in the list is that of its first.
`Follows` says that a table and a ledger have come to such terms; an edit keeps
them (`Follows.edit`).

That is about one list of bindings. With the two stores of `LabelStores` there is
more to be asked. Whoever goes through them looks up the index of every label
that is listed, and would be stuck at one without an index; and stores that have
come about in different ways could show the same labels and still differ. Neither
occurs, since the stores stay the two halves of a table (`editAll_ofTable`), from
which the halves can be told again (`iter?_ofTable`).
-/

namespace RegisterMachine

/-- What can be done to a label table. -/
inductive LabelEdit
  | define (label : String) (index : Nat)
  | rebind (label : String) (index : Nat)
  /-- Unbinds every label. -/
  | reset
  deriving DecidableEq, Repr

namespace LabelEdit

/-- The ledger after one more edit. A label with an entry is not defined again. -/
def post (ledger : List (String × Nat)) : LabelEdit → List (String × Nat)
  | define label index =>
    if label ∈ ledger.map Prod.fst then ledger else ledger ++ [(label, index)]
  | rebind label index => ledger ++ [(label, index)]
  | reset => []

/-- What the edits since the last reset have bound, those that were refused left out. -/
def ledger (edits : List LabelEdit) : List (String × Nat) :=
  edits.foldl post []

end LabelEdit

namespace LabelTable

/-- Makes an edit. After one that is refused, the table is as it was. -/
def edit (table : LabelTable) : LabelEdit → LabelTable × Option Error
  | .define label index =>
    match table.define label index with
    | .ok after => (after, none)
    | .error fault => (table, some fault)
  | .rebind label index => (table.rebind label index, none)
  | .reset => (empty, none)

def editAll (table : LabelTable) (edits : List LabelEdit) : LabelTable :=
  edits.foldl (fun table edit => (table.edit edit).1) table

end LabelTable

namespace LabelStores

/-- Makes an edit in both stores, as `LabelTable.edit` does in a table. -/
def edit (stores : LabelStores) : LabelEdit → LabelStores × Option Error
  | .define label index =>
    match stores.define label index with
    | .ok after => (after, none)
    | .error fault => (stores, some fault)
  | .rebind label index => (stores.rebind label index, none)
  | .reset => (empty, none)

def editAll (stores : LabelStores) (edits : List LabelEdit) : LabelStores :=
  edits.foldl (fun stores edit => (stores.edit edit).1) stores

/-- The labels with their indices, unless one is listed that has none. -/
def iter? (stores : LabelStores) : Option (List (String × Nat)) :=
  stores.order.mapM fun label => (stores.positions label).map (label, ·)

def display? (stores : LabelStores) : Option String :=
  stores.iter?.map fun bindings =>
    "(" ++ ", ".intercalate (bindings.map fun (label, index) =>
      label ++ "@" ++ Numeral.ofNat index) ++ ")"

variable {table other : LabelTable}

/-! ## The halves of a table -/

theorem edit_ofTable (table : LabelTable) (edit : LabelEdit) :
    (ofTable table).edit edit = (ofTable (table.edit edit).1, (table.edit edit).2) := by
  cases edit with
  | define label index =>
      rw [LabelStores.edit, define_ofTable, LabelTable.edit]
      cases table.define label index <;> rfl
  | rebind label index =>
      rw [LabelStores.edit, rebind_ofTable]
      rfl
  | reset => rfl

theorem editAll_ofTable (table : LabelTable) (edits : List LabelEdit) :
    (ofTable table).editAll edits = ofTable (table.editAll edits) := by
  induction edits generalizing table with
  | nil => rfl
  | cons edit edits ih =>
      rw [editAll, List.foldl_cons, edit_ofTable]
      exact ih (table.edit edit).1

theorem iter?_ofTable (table : LabelTable) : (ofTable table).iter? = some table.bindings := by
  have hall : ∀ bindings : List (String × Nat),
      (∀ binding ∈ bindings, table.find? binding.1 = some binding.2) →
      (bindings.map Prod.fst).mapM (fun label => (table.find? label).map (label, ·))
        = some bindings := by
    intro bindings hfind
    induction bindings with
    | nil => rfl
    | cons binding bindings ih =>
        rw [List.forall_mem_cons] at hfind
        rw [List.map_cons, List.mapM_cons, ih hfind.2, hfind.1]
        rfl
  exact hall table.bindings fun binding hmem => LabelTable.find?_eq_some_iff.2 hmem

theorem display?_ofTable (table : LabelTable) : (ofTable table).display? = some table.display := by
  rw [display?, iter?_ofTable]
  rfl

end LabelStores

namespace LabelTable

variable {table : LabelTable} {ledger : List (String × Nat)} {label : String} {index : Nat}

theorem resolve_eq_ok_iff : table.resolve label = .ok index ↔ table.find? label = some index := by
  rw [resolve]
  cases table.find? label <;> simp

theorem resolve_eq_error_iff {fault : Error} :
    table.resolve label = .error fault ↔
      fault = .undefinedLabel label ∧ table.find? label = none := by
  rw [resolve]
  cases table.find? label <;> simp [eq_comm]

theorem names_rebind (hbound : label ∈ table.names) :
    (table.rebind label index).names = table.names := by
  rw [rebind, dif_pos hbound, names_move]

theorem eq_iff_bindings {other : LabelTable} : table = other ↔ table.bindings = other.bindings := by
  constructor
  · exact congrArg bindings
  · cases table
    cases other
    rintro ⟨⟩
    rfl

/-- What an edit can do. Only a definition can be refused, and otherwise it is like a rebinding. -/
theorem edit_cases (table : LabelTable) (edit : LabelEdit) :
    (∃ label index, edit = .define label index ∧ label ∈ table.names ∧
      table.edit edit = (table, some (.duplicateLabel label))) ∨
    (∃ label index, (edit = .define label index ∧ label ∉ table.names ∨
        edit = .rebind label index) ∧
      table.edit edit = (table.rebind label index, none)) ∨
    (edit = .reset ∧ table.edit edit = (empty, none)) := by
  cases edit with
  | define label index =>
      rw [LabelTable.edit, define]
      by_cases hbound : label ∈ table.names
      · rw [dif_pos hbound]
        exact .inl ⟨label, index, rfl, hbound, rfl⟩
      · rw [dif_neg hbound]
        refine .inr (.inl ⟨label, index, .inl ⟨rfl, hbound⟩, ?_⟩)
        rw [rebind, dif_neg hbound]
  | rebind label index => exact .inr (.inl ⟨label, index, .inr rfl, rfl⟩)
  | reset => exact .inr (.inr ⟨rfl, rfl⟩)

/-! ## Following a ledger -/

/-- The table knows for each label what the ledger has last, and lists the labels as they come. -/
structure Follows (table : LabelTable) (ledger : List (String × Nat)) : Prop where
  find? : ∀ label, table.find? label = Ledger.latest? (· = label) ledger
  names : table.names = (ledger.map Prod.fst).eraseDups

theorem follows_empty : Follows empty [] where
  find? _ := rfl
  names := rfl

theorem Follows.mem_names_iff (h : Follows table ledger) :
    label ∈ table.names ↔ label ∈ ledger.map Prod.fst := by
  rw [h.names, List.mem_eraseDups]

theorem Follows.rebind (h : Follows table ledger) (label : String) (index : Nat) :
    Follows (table.rebind label index) (ledger ++ [(label, index)]) where
  find? name := by
    rw [find?_rebind, Ledger.latest?_append_singleton, h.find?]
    simp only [eq_comm]
  names := by
    have hmem : label ∈ ledger.map Prod.fst ↔ label ∈ table.names := h.mem_names_iff.symm
    rw [List.map_append, List.map_singleton, List.eraseDups_append, ← h.names, LabelTable.rebind]
    split
    · next hbound => simp [List.removeAll, hmem.2 hbound]
    · next hfresh => simp [List.removeAll, mt hmem.1 hfresh, List.eraseDups_cons]

theorem Follows.edit (h : Follows table ledger) (edit : LabelEdit) :
    Follows (table.edit edit).1 (edit.post ledger) := by
  rcases table.edit_cases edit with ⟨label, index, rfl, hbound, hedit⟩
    | ⟨label, index, ⟨rfl, hfresh⟩ | rfl, hedit⟩ | ⟨rfl, hedit⟩
  · rw [hedit, LabelEdit.post, if_pos (h.mem_names_iff.1 hbound)]
    exact h
  · rw [hedit, LabelEdit.post, if_neg (mt h.mem_names_iff.2 hfresh)]
    exact h.rebind label index
  · exact h.rebind label index
  · exact follows_empty

theorem Follows.editAll (h : Follows table ledger) (edits : List LabelEdit) :
    Follows (table.editAll edits) (edits.foldl LabelEdit.post ledger) := by
  induction edits generalizing table ledger with
  | nil => exact h
  | cons edit edits ih => exact ih (h.edit edit)

/-! ## What the ledger of the edits tells -/

/-- What can be told of a table from the ledger of what was bound in it. -/
structure Account (table : LabelTable) (ledger : List (String × Nat)) : Prop where
  /-- A label stands for the index that it was last bound to. -/
  found : ∀ label index,
    table.resolve label = .ok index ↔ Ledger.Latest (· = label) ledger index
  missing : ∀ label fault,
    table.resolve label = .error fault ↔
      fault = .undefinedLabel label ∧ ∀ entry ∈ ledger, entry.1 ≠ label
  /-- The labels come in the order in which they were bound first. -/
  ordered : table.names = (ledger.map Prod.fst).eraseDups
  unmoved : ∀ label index, label ∈ table.names → (table.rebind label index).names = table.names
  /-- What is refused defines a label that is bound, and it changes nothing. -/
  refused : ∀ edit after fault, table.edit edit = (after, some fault) ↔
    after = table ∧ ∃ label index, edit = .define label index ∧ fault = .duplicateLabel label ∧
      label ∈ ledger.map Prod.fst

theorem Follows.refused_iff (h : Follows table ledger) {edit : LabelEdit} {after : LabelTable}
    {fault : Error} :
    table.edit edit = (after, some fault) ↔
      after = table ∧ ∃ label index, edit = .define label index ∧ fault = .duplicateLabel label ∧
        label ∈ ledger.map Prod.fst := by
  simp only [← h.mem_names_iff]
  rcases table.edit_cases edit with ⟨label, index, rfl, hbound, hedit⟩
    | ⟨label, index, hwhich, hedit⟩ | ⟨rfl, hedit⟩
  · rw [hedit]
    constructor
    · rintro ⟨⟩
      exact ⟨rfl, label, index, rfl, rfl, hbound⟩
    · rintro ⟨rfl, _, _, ⟨⟩, rfl, -⟩
      rfl
  · rw [hedit]
    constructor
    · rintro ⟨⟩
    · rintro ⟨-, _, _, hdefine, -, hbound⟩
      rcases hwhich with ⟨rfl, hfresh⟩ | rfl <;> cases hdefine
      exact absurd hbound hfresh
  · constructor
    · rintro ⟨⟩
    · rintro ⟨-, _, _, ⟨⟩, -⟩

theorem Follows.account (h : Follows table ledger) : Account table ledger where
  found label index := by
    rw [resolve_eq_ok_iff, h.find?, Ledger.latest?_eq_some_iff]
  missing label fault := by
    rw [resolve_eq_error_iff, h.find?, Ledger.latest?_eq_none_iff]
  ordered := h.names
  unmoved _ _ := names_rebind
  refused _ _ _ := h.refused_iff

end LabelTable

/-! ## What that makes of the two stores -/

namespace LabelStores

/-- The two stores agree, and what is done to them comes out as it does with the table. -/
structure Intact (stores : LabelStores) (table : LabelTable) : Prop where
  halves : stores = ofTable table
  nodup : stores.order.Nodup
  listed : ∀ label, label ∈ stores.order ↔ ∃ index, stores.positions label = some index
  counted : stores.order.length = {label | ∃ index, stores.positions label = some index}.ncard
  /-- Going through them is never stuck, and so showing them is not. -/
  iterated : stores.iter? = some table.bindings
  displayed : stores.display? = some table.display
  edited : ∀ edit, stores.edit edit = (ofTable (table.edit edit).1, (table.edit edit).2)

theorem intact_ofTable (table : LabelTable) : (ofTable table).Intact table where
  halves := rfl
  nodup := table.nodup
  listed _ := LabelTable.mem_names_iff
  counted := by
    have hbound : {label | ∃ index, (ofTable table).positions label = some index}
        = (table.names.toFinset : Set String) := by
      ext label
      rw [Finset.mem_coe, List.mem_toFinset, LabelTable.mem_names_iff]
      rfl
    have hcount : table.names.toFinset.card = table.names.length :=
      List.toFinset_card_of_nodup table.nodup
    rw [hbound, Set.ncard_coe_finset, hcount]
    rfl
  iterated := iter?_ofTable table
  displayed := display?_ofTable table
  edited := edit_ofTable table

theorem ofTable_eq_iff :
    ofTable table = ofTable other ↔ (ofTable table).iter? = (ofTable other).iter? := by
  constructor
  · exact congrArg iter?
  · intro h
    rw [iter?_ofTable, iter?_ofTable, Option.some_inj, ← LabelTable.eq_iff_bindings] at h
    rw [h]

end LabelStores

theorem LabelTable.editAll_account (edits : List LabelEdit) :
    (LabelStores.empty.editAll edits).Intact (empty.editAll edits) ∧
      Account (empty.editAll edits) (LabelEdit.ledger edits) ∧
      ∀ others : List LabelEdit,
        (LabelStores.empty.editAll edits = LabelStores.empty.editAll others ↔
          (LabelStores.empty.editAll edits).iter? = (LabelStores.empty.editAll others).iter?) ∧
        (empty.editAll edits = empty.editAll others ↔
          (empty.editAll edits).bindings = (empty.editAll others).bindings) := by
  have hstores : ∀ edits,
      LabelStores.empty.editAll edits = LabelStores.ofTable (empty.editAll edits) :=
    LabelStores.editAll_ofTable empty
  simp only [hstores]
  exact ⟨LabelStores.intact_ofTable _, (follows_empty.editAll edits).account,
    fun _ => ⟨LabelStores.ofTable_eq_iff, eq_iff_bindings⟩⟩

/-- A label keeps its place as long as the table is not reset, and no longer. -/
example :
    (LabelTable.empty.editAll [.define "a" 0, .define "b" 1, .rebind "a" 5, .define "b" 7]).bindings
        = [("a", 5), ("b", 1)] ∧
      (LabelTable.empty.editAll
          [.define "a" 0, .define "b" 1, .reset, .define "b" 7, .define "a" 5]).bindings
        = [("b", 7), ("a", 5)] := by
  decide

end RegisterMachine
