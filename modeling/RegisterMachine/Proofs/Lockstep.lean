import RegisterMachine.Proofs.Stepping

/-!
# Systems that step alike run alike

A machine is not the only thing that can be run step by step. What a run does
depends on the step function alone, so it is told here once for every system
that steps with an `Outcome`, and `runFrom_eq` says that a machine's run is
this one.

Two systems go in lockstep when some relation between their states is kept by
a step of both, with the same outcome each time. Then they also end together,
after as many steps and in the same way, or neither of them ends. This is the
induction behind every comparison of two runs; what is left to each of them is
a lemma about one step.
-/

namespace RegisterMachine

/-- A system that is run step by step, by its step function. -/
abbrev Stepper (σ : Type) : Type :=
  σ → σ × Outcome

namespace Stepper

variable {σ τ : Type}

def stepped (step : Stepper σ) (state : σ) (count : Nat) : σ :=
  (fun state => (step state).1)^[count] state

/-- Takes steps as `Machine.runFrom` does. -/
def runFrom (step : Stepper σ) (executed : Nat) : Nat → σ → σ × Nat × Outcome
  | 0, state => (state, executed, .continued)
  | steps + 1, state =>
    match step state with
    | (after, .continued) => runFrom step (executed + 1) steps after
    | (after, outcome) => (after, executed, outcome)

/-- Related states step with the same outcome, and to related states. -/
def Lockstep (first : Stepper σ) (second : Stepper τ) (related : σ → τ → Prop) : Prop :=
  ∀ state other, related state other →
    (first state).2 = (second other).2 ∧ related (first state).1 (second other).1

variable {first : Stepper σ} {second : Stepper τ} {related : σ → τ → Prop}

theorem Lockstep.stepped (h : Lockstep first second related) (count : Nat) :
    ∀ state other, related state other →
      related (Stepper.stepped first state count) (Stepper.stepped second other count) := by
  induction count with
  | zero => exact fun state other hrelated => hrelated
  | succ count ih =>
      intro state other hrelated
      exact ih _ _ (h state other hrelated).2

theorem Lockstep.runFrom (h : Lockstep first second related) (steps : Nat) :
    ∀ (executed : Nat) (state : σ) (other : τ), related state other →
      (Stepper.runFrom first executed steps state).2
          = (Stepper.runFrom second executed steps other).2
        ∧ related (Stepper.runFrom first executed steps state).1
            (Stepper.runFrom second executed steps other).1 := by
  induction steps with
  | zero => exact fun executed state other hrelated => ⟨rfl, hrelated⟩
  | succ steps ih =>
      intro executed state other hrelated
      obtain ⟨houtcome, hafter⟩ := h state other hrelated
      rw [Stepper.runFrom, Stepper.runFrom]
      rcases hfirst : first state with ⟨after, outcome⟩
      rcases hsecond : second other with ⟨afterOther, outcomeOther⟩
      rw [hfirst, hsecond] at houtcome hafter
      obtain rfl : outcome = outcomeOther := houtcome
      cases outcome with
      | continued => exact ih (executed + 1) after afterOther hafter
      | halted => exact ⟨rfl, hafter⟩
      | failed error => exact ⟨rfl, hafter⟩

end Stepper

namespace Machine

theorem runFrom_eq (steps : Nat) :
    ∀ (executed : Nat) (machine : Machine),
      runFrom executed steps machine = Stepper.runFrom step executed steps machine := by
  induction steps with
  | zero => exact fun executed machine => rfl
  | succ steps ih =>
      intro executed machine
      rw [runFrom, Stepper.runFrom]
      cases machine.step with
      | mk after outcome =>
          cases outcome with
          | continued => exact ih (executed + 1) after
          | halted => rfl
          | failed error => rfl

theorem run_of_lockstep {τ : Type} {other : Stepper τ} {related : Machine → τ → Prop}
    (h : Stepper.Lockstep step other related) {machine : Machine} {state : τ}
    (hrelated : related machine state) (steps : Nat) :
    (machine.run steps).2 = (Stepper.runFrom other 0 steps state).2
      ∧ related (machine.run steps).1 (Stepper.runFrom other 0 steps state).1 := by
  rw [run, runFrom_eq]
  exact h.runFrom steps 0 machine state hrelated

end Machine

end RegisterMachine
