import Mathlib.Data.List.Basic

/-!
# What was stored last

A ledger lists what was stored under which key, in the order of storing. Nothing
is struck out of it, and so it keeps apart what a map with overwriting does not:
that something was stored under a key, and that nothing was stored over it since.

`Latest` says both of a value. The keys that count as one are given by a
predicate, since names can be the same name in several spellings. `latest?`
computes the value, and `latest?_append_singleton` is the step of its induction.
-/

namespace RegisterMachine.Ledger

variable {κ ν : Type} (hits : κ → Prop)

/-- The value was stored under a key that is meant, and since then nothing was. -/
def Latest (ledger : List (κ × ν)) (value : ν) : Prop :=
  ∃ earlier key later, ledger = earlier ++ (key, value) :: later ∧ hits key ∧
    ∀ entry ∈ later, ¬ hits entry.1

/-- What was stored last under a key that is meant. -/
def latest? [DecidablePred hits] (ledger : List (κ × ν)) : Option ν :=
  (ledger.reverse.find? fun entry => hits entry.1).map Prod.snd

variable [DecidablePred hits]

theorem latest?_append_singleton (ledger : List (κ × ν)) (entry : κ × ν) :
    latest? hits (ledger ++ [entry])
      = if hits entry.1 then some entry.2 else latest? hits ledger := by
  rw [latest?, List.reverse_concat, List.find?_cons]
  by_cases hit : hits entry.1
  · simp [hit]
  · simp [hit, latest?]

variable {hits} {ledger : List (κ × ν)}

theorem latest?_eq_some_iff {value : ν} :
    latest? hits ledger = some value ↔ Latest hits ledger value := by
  rw [latest?, Option.map_eq_some_iff]
  constructor
  · rintro ⟨⟨key, stored⟩, hfind, rfl⟩
    obtain ⟨hhit, later, earlier, hledger, hlater⟩ := List.find?_eq_some_iff_append.1 hfind
    refine ⟨earlier.reverse, key, later.reverse, ?_, by simpa using hhit, ?_⟩
    · rw [List.reverse_eq_append_iff.1 hledger, List.reverse_cons, List.append_assoc]
      rfl
    · intro entry hentry
      simpa using hlater entry (List.mem_reverse.1 hentry)
  · rintro ⟨earlier, key, later, rfl, hhit, hlater⟩
    refine ⟨(key, value), List.find?_eq_some_iff_append.2 ?_, rfl⟩
    refine ⟨by simpa using hhit, later.reverse, earlier.reverse, by simp, ?_⟩
    intro entry hentry
    simpa using hlater entry (List.mem_reverse.1 hentry)

theorem latest?_eq_none_iff :
    latest? hits ledger = none ↔ ∀ entry ∈ ledger, ¬ hits entry.1 := by
  rw [latest?, Option.map_eq_none_iff, List.find?_eq_none]
  simp only [List.mem_reverse, decide_eq_true_eq]

end RegisterMachine.Ledger
