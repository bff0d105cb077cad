import RegisterMachine.Proofs.StandardVocabulary
import RegisterMachine.Proofs.ByteOrder
import RegisterMachine.Proofs.Ledger
import Mathlib.Data.List.Forall2

/-!
# A vocabulary is what was stored last

A vocabulary is filled by two calls. One enters a mnemonic with a format, the
other an alias, for which the model is looked up there and then. What a name
stands for can be told from the calls alone: from the last one that stored
something under that name, in whatever case it was spelled.

The ledger of the calls is kept without a vocabulary. An alias appends to it what
the ledger has last for the model, and nothing if it has nothing, so it never
learns of what is stored under the model's name later. `Follows` says that a
vocabulary knows what a ledger has last and lists the names in it. One call keeps
that (`Follows.register`), and so do all of them.
-/

namespace RegisterMachine

/-! ## One name in several spellings -/

/-- One character twice, or an ASCII letter in both of its cases. -/
def SameLetter (a b : Char) : Prop :=
  a = b ∨ ('A' ≤ a ∧ a ≤ 'Z' ∧ b.toNat = a.toNat + 32) ∨
    ('A' ≤ b ∧ b ≤ 'Z' ∧ a.toNat = b.toNat + 32)

instance : DecidableRel SameLetter :=
  fun a b => inferInstanceAs (Decidable (a = b ∨ _ ∨ _))

/-- The names are spelled alike, if the case of ASCII letters is left out of account. -/
def SameName (a b : String) : Prop :=
  List.Forall₂ SameLetter a.toList b.toList

theorem toNat_toLower (c : Char) :
    c.toLower.toNat = if 65 ≤ c.toNat ∧ c.toNat ≤ 90 then c.toNat + 32 else c.toNat := by
  unfold Char.toLower
  split
  · next h =>
      have hupper : 65 ≤ c.toNat ∧ c.toNat ≤ 90 := h
      rw [if_pos hupper]
      show (c.val + 32).toNat = _
      rw [UInt32.toNat_add]
      show (c.toNat + 32) % 2 ^ 32 = _
      omega
  · next h =>
      have hupper : ¬ (65 ≤ c.toNat ∧ c.toNat ≤ 90) := h
      rw [if_neg hupper]

theorem toLower_eq_iff {a b : Char} : a.toLower = b.toLower ↔ SameLetter a b := by
  have hA : ∀ c : Char, 'A' ≤ c ↔ 65 ≤ c.toNat := fun c => Iff.rfl
  have hZ : ∀ c : Char, c ≤ 'Z' ↔ c.toNat ≤ 90 := fun c => Iff.rfl
  rw [← Char.toNat_inj, toNat_toLower, toNat_toLower, SameLetter, ← Char.toNat_inj, hA, hZ, hA, hZ]
  split_ifs <;> omega

theorem normalize_eq_iff {a b : String} :
    Vocabulary.normalize a = Vocabulary.normalize b ↔ SameName a b := by
  rw [← String.toList_inj, Vocabulary.normalize, Vocabulary.normalize, String.toList_map,
    String.toList_map, ← List.forall₂_eq_eq_eq, List.forall₂_map_left_iff,
    List.forall₂_map_right_iff]
  simp only [toLower_eq_iff]
  rfl

instance : DecidableRel SameName :=
  fun a b => inferInstanceAs (Decidable (List.Forall₂ SameLetter a.toList b.toList))

/-! ## The calls and their ledger -/

/-- A call that enters something into a vocabulary. -/
inductive Registration
  | enter (spelling : String) (format : InstructionFormat)
  | enterAlias (name model : String)

namespace Registration

/-- The name under which a call stores something. -/
def name : Registration → String
  | enter spelling _ => spelling
  | enterAlias name _ => name

/-- What a call stores after those of the ledger, unless it fails. -/
def stored? (ledger : List (String × Mnemonic)) : Registration → Option Mnemonic
  | enter spelling format => some { spelling, format }
  | enterAlias _ model => Ledger.latest? (SameName · model) ledger

/-- The ledger after one more call. -/
def post (ledger : List (String × Mnemonic)) (call : Registration) : List (String × Mnemonic) :=
  match call.stored? ledger with
  | some mnemonic => ledger ++ [(call.name, mnemonic)]
  | none => ledger

/-- What the successful ones of the calls have stored. -/
def ledger (calls : List Registration) : List (String × Mnemonic) :=
  calls.foldl post []

/-- The calls that make the vocabulary of the instruction catalog. -/
def catalogued : List Registration :=
  Opcode.all.map fun opcode => .enter opcode.mnemonic opcode.format

end Registration

namespace Vocabulary

/-- Obeys a call. After one that fails, the vocabulary is as it was. -/
def register (vocabulary : Vocabulary) : Registration → Vocabulary × Option Error
  | .enter spelling format => (vocabulary.enter spelling format, none)
  | .enterAlias name model =>
    match vocabulary.enterAlias name model with
    | .ok after => (after, none)
    | .error fault => (vocabulary, some fault)

def registerAll (vocabulary : Vocabulary) (calls : List Registration) : Vocabulary :=
  calls.foldl (fun known call => (known.register call).1) vocabulary

theorem standard_registerAll (calls : List Registration) :
    standard.registerAll calls = empty.registerAll (Registration.catalogued ++ calls) := by
  have hstandard : standard = empty.registerAll Registration.catalogued := by
    rw [registerAll, Registration.catalogued, List.foldl_map]
    rfl
  rw [hstandard, registerAll, registerAll, registerAll, List.foldl_append]

/-! ## What is looked up and what is listed -/

variable {known : Vocabulary} {ledger : List (String × Mnemonic)} {call : Registration}
  {mnemonic : Mnemonic}

theorem mem_names_insert {name other : String} :
    other ∈ (known.insert name mnemonic).names ↔ normalize name = other ∨ other ∈ known.names := by
  rw [names, names, insert, Std.TreeMap.mem_keys, Std.TreeMap.mem_keys, Std.TreeMap.mem_insert,
    Std.compare_eq_iff_eq]

theorem lookup_eq_ok {name : String} :
    known.lookup name = .ok mnemonic ↔ known.find? name = some mnemonic := by
  rw [lookup]
  cases known.find? name <;> simp

theorem lookup_eq_error {name : String} {fault : Error} :
    known.lookup name = .error fault ↔
      fault = .unknownInstruction name ∧ known.find? name = none := by
  rw [lookup]
  cases known.find? name <;> simp [eq_comm]

theorem contains_iff {name : String} :
    known.contains name = true ↔ ∃ mnemonic, known.lookup name = .ok mnemonic := by
  simp only [contains, Option.isSome_iff_exists, lookup_eq_ok]

theorem names_increasing (known : Vocabulary) :
    known.names.Pairwise fun a b => (Source.ofText a).bytes < (Source.ofText b).bytes :=
  Std.TreeMap.ordered_keys.imp Source.bytes_lt_of_compare

/-! ## Following a ledger -/

/-- The vocabulary knows for each name what the ledger has last. -/
structure Follows (known : Vocabulary) (ledger : List (String × Mnemonic)) : Prop where
  find? : ∀ name, known.find? name = Ledger.latest? (SameName · name) ledger
  mem_names : ∀ name, name ∈ known.names ↔ ∃ entry ∈ ledger, normalize entry.1 = name

theorem follows_empty : Follows empty [] where
  find? name := Std.TreeMap.getElem?_emptyc
  mem_names name := by
    rw [names, empty, Std.TreeMap.mem_keys]
    simp

namespace Follows

theorem insert (h : Follows known ledger) (name : String) (mnemonic : Mnemonic) :
    Follows (known.insert name mnemonic) (ledger ++ [(name, mnemonic)]) where
  find? other := by
    rw [find?_insert, Ledger.latest?_append_singleton, h.find?]
    simp only [normalize_eq_iff]
  mem_names other := by
    rw [mem_names_insert, h.mem_names]
    simp only [List.mem_append, List.mem_singleton, or_and_right, exists_or, exists_eq_left]
    exact or_comm

theorem lookup_eq_ok_iff (h : Follows known ledger) {name : String} :
    known.lookup name = .ok mnemonic ↔ Ledger.Latest (SameName · name) ledger mnemonic := by
  rw [lookup_eq_ok, h.find?, Ledger.latest?_eq_some_iff]

theorem lookup_eq_error_iff (h : Follows known ledger) {name : String} {fault : Error} :
    known.lookup name = .error fault ↔
      fault = .unknownInstruction name ∧ ∀ entry ∈ ledger, ¬ SameName entry.1 name := by
  rw [lookup_eq_error, h.find?, Ledger.latest?_eq_none_iff]

theorem stored?_enterAlias_iff (h : Follows known ledger) {name model : String} :
    (Registration.enterAlias name model).stored? ledger = some mnemonic ↔
      known.lookup model = .ok mnemonic :=
  Ledger.latest?_eq_some_iff.trans h.lookup_eq_ok_iff.symm

theorem register_of_stored (h : Follows known ledger)
    (hstored : call.stored? ledger = some mnemonic) :
    known.register call = (known.insert call.name mnemonic, none) := by
  cases call with
  | enter spelling format =>
      cases hstored
      rfl
  | enterAlias name model =>
      have hmodel : known.lookup model = .ok mnemonic := h.stored?_enterAlias_iff.1 hstored
      rw [register, enterAlias, hmodel]
      rfl

theorem register_of_refused (h : Follows known ledger) (hrefused : call.stored? ledger = none) :
    ∃ model, call = .enterAlias call.name model ∧
      known.register call = (known, some (.unknownInstruction model)) := by
  cases call with
  | enter spelling format => cases hrefused
  | enterAlias name model =>
      have hnone : Ledger.latest? (SameName · model) ledger = none := hrefused
      have hmodel : known.lookup model = .error (.unknownInstruction model) :=
        h.lookup_eq_error_iff.2 ⟨rfl, Ledger.latest?_eq_none_iff.1 hnone⟩
      refine ⟨model, rfl, ?_⟩
      rw [register, enterAlias, hmodel]
      rfl

theorem register (h : Follows known ledger) (call : Registration) :
    Follows (known.register call).1 (call.post ledger) := by
  rw [Registration.post]
  cases hstored : call.stored? ledger with
  | some mnemonic =>
      rw [h.register_of_stored hstored]
      exact h.insert call.name mnemonic
  | none =>
      obtain ⟨model, -, hregister⟩ := h.register_of_refused hstored
      rw [hregister]
      exact h

theorem registerAll (h : Follows known ledger) (calls : List Registration) :
    Follows (known.registerAll calls) (calls.foldl Registration.post ledger) := by
  induction calls generalizing known ledger with
  | nil => exact h
  | cons call calls ih => exact ih (h.register call)

end Follows

/-! ## What the ledger of the calls tells -/

/-- What can be told of a vocabulary from the ledger of what was stored in it. -/
structure Account (known : Vocabulary) (ledger : List (String × Mnemonic)) : Prop where
  /-- A name stands for what was last stored under it, in whatever case it was spelled. -/
  found : ∀ name mnemonic,
    known.lookup name = .ok mnemonic ↔ Ledger.Latest (SameName · name) ledger mnemonic
  /-- The one fault there is gives the name as it was spelled. -/
  missing : ∀ name fault,
    known.lookup name = .error fault ↔
      fault = .unknownInstruction name ∧ ∀ entry ∈ ledger, ¬ SameName entry.1 name
  contained : ∀ name, known.contains name = true ↔ ∃ mnemonic, known.lookup name = .ok mnemonic
  /-- An alias is to store what its model stands for at that moment. -/
  resolved : ∀ name model mnemonic,
    (Registration.enterAlias name model).stored? ledger = some mnemonic ↔
      known.lookup model = .ok mnemonic
  stored : ∀ call mnemonic, call.stored? ledger = some mnemonic →
    known.register call = (known.insert call.name mnemonic, none)
  /-- What fails is an alias without a model, and it changes nothing. -/
  failed : ∀ call : Registration, call.stored? ledger = none →
    ∃ model, call = .enterAlias call.name model ∧
      known.register call = (known, some (.unknownInstruction model))
  /-- No other name is affected, the aliases of this one included. -/
  unaffected : ∀ (call : Registration) (name : String), ¬ SameName call.name name →
    (known.register call).1.lookup name = known.lookup name
  listed : ∀ name, name ∈ known.names ↔ ∃ entry ∈ ledger, normalize entry.1 = name
  increasing : known.names.Pairwise fun a b => (Source.ofText a).bytes < (Source.ofText b).bytes

namespace Follows

theorem lookup_register_of_not_sameName (h : Follows known ledger) {name : String}
    (hother : ¬ SameName call.name name) :
    (known.register call).1.lookup name = known.lookup name := by
  have hfind : (known.register call).1.find? name = known.find? name := by
    rw [(h.register call).find?, h.find?, Registration.post]
    cases call.stored? ledger with
    | none => rfl
    | some mnemonic =>
        show Ledger.latest? _ (ledger ++ [(call.name, mnemonic)]) = _
        rw [Ledger.latest?_append_singleton, if_neg hother]
  rw [lookup, lookup, hfind]

theorem account (h : Follows known ledger) : Account known ledger where
  found _ _ := h.lookup_eq_ok_iff
  missing _ _ := h.lookup_eq_error_iff
  contained _ := contains_iff
  resolved _ _ _ := h.stored?_enterAlias_iff
  stored _ _ := h.register_of_stored
  failed _ := h.register_of_refused
  unaffected _ _ := h.lookup_register_of_not_sameName
  listed := h.mem_names
  increasing := names_increasing known

end Follows

theorem registerAll_account (calls : List Registration) :
    Account (empty.registerAll calls) (Registration.ledger calls) ∧
      Account (standard.registerAll calls)
        (Registration.ledger (Registration.catalogued ++ calls)) := by
  have hfollows : ∀ calls, Follows (empty.registerAll calls) (Registration.ledger calls) :=
    follows_empty.registerAll
  rw [standard_registerAll]
  exact ⟨(hfollows calls).account, (hfollows _).account⟩

/-- The alias keeps the format that its model had, and an alias without a model leaves no trace. -/
example (first second : InstructionFormat) :
    Registration.ledger [.enter "out" first, .enterAlias "print" "OUT", .enter "Out" second,
        .enterAlias "quit" "halt"]
      = [("out", ⟨"out", first⟩), ("print", ⟨"out", first⟩), ("Out", ⟨"Out", second⟩)] := by
  cbv

end Vocabulary

end RegisterMachine
