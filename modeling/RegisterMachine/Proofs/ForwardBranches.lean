import RegisterMachine.Proofs.BranchTargets
import RegisterMachine.Proofs.WellFormed

/-!
# Programs that only branch forward stop

A run has no bound of its own. It has one if no bound target lies at or before a
branch to it: then every instruction that is executed raises the counter, by one
or by a jump, and a counter that starts in the program has left it after as many
instructions as there were from it on. Where a jump leads and what the registers
hold does not matter, and neither do targets that are not bound, since a fault
ends the run as well.

Without branches the counter is raised by one each time. From the start such a
program is executed once, each instruction of it, unless one of them names a
register that is not there.
-/

namespace RegisterMachine

namespace Machine

variable {machine : Machine}

/-- The targets that are bound are bound behind the branches to them. -/
def BranchesForward (machine : Machine) : Prop :=
  ∀ index instruction, machine.instructions[index]? = some instruction →
    ∀ target ∈ instruction.operation.target?, ∀ place ∈ machine.labels.find? target, index < place

instance (machine : Machine) : Decidable machine.BranchesForward :=
  decidable_of_iff
    (machine.instructions.toList.zipIdx.all fun (instruction, index) =>
      instruction.operation.target?.all fun target =>
        (machine.labels.find? target).all fun place => decide (index < place))
    (by
      simp only [BranchesForward, List.all_eq_true, Prod.forall, List.mem_zipIdx_iff_getElem?,
        Array.getElem?_toList, Option.all_eq_true, decide_eq_true_iff, Option.mem_def]
      exact forall_comm)

/-- No instruction of the program is a branch. -/
def Branchless (machine : Machine) : Prop :=
  ∀ instruction ∈ machine.instructions, instruction.operation.target? = none

/-! ## One step -/

theorem pc_lt_size_of_step (h : machine.step.2 ≠ .halted) :
    machine.pc < machine.instructions.size := by
  by_contra hpc
  exact h (congrArg Prod.snd (step_of_halted (Nat.not_lt.1 hpc)))

/-- A step that finds an instruction takes the counter past it, or to where its target is bound. -/
theorem pc_step_cases (h : machine.step.2 ≠ .halted) :
    ∃ instruction, machine.instructions[machine.pc]? = some instruction
      ∧ (machine.step.1.pc = machine.pc + 1
        ∨ ∃ target ∈ instruction.operation.target?,
          machine.labels.find? target = some machine.step.1.pc) := by
  obtain ⟨-, hstep⟩ | ⟨instruction, effect, hfetch, heffect, hstep⟩ |
    ⟨instruction, error, hfetch, -, hstep⟩ := machine.step_cases
  · exact absurd (congrArg Prod.snd hstep) h
  · refine ⟨instruction, hfetch, ?_⟩
    rw [hstep]
    obtain hstay | ⟨register, target, hbranch, hfind⟩ :=
      pc_apply_cases (Operation.effect_eq_ok_iff.1 heffect) (machine.fetched instruction)
    · exact .inl (hstay.trans fetched_pc)
    · rw [hbranch]
      exact .inr ⟨target, rfl, hfind⟩
  · exact ⟨instruction, hfetch, .inl (by rw [hstep, fetched_pc])⟩

theorem BranchesForward.step (h : machine.BranchesForward) : machine.step.1.BranchesForward := by
  obtain ⟨hlabels, hinstructions, -⟩ := machine.step_frame
  rw [BranchesForward, hlabels, hinstructions]
  exact h

theorem BranchesForward.pc_lt (h : machine.BranchesForward) (hstep : machine.step.2 ≠ .halted) :
    machine.pc < machine.step.1.pc := by
  obtain ⟨instruction, hfetch, hnext | ⟨target, htarget, hfind⟩⟩ := pc_step_cases hstep
  · omega
  · exact h machine.pc instruction hfetch target htarget _ hfind

theorem Branchless.branchesForward (h : machine.Branchless) : machine.BranchesForward := by
  intro index instruction hfetch target htarget
  rw [h instruction (Array.mem_of_getElem? hfetch)] at htarget
  cases htarget

theorem Branchless.step (h : machine.Branchless) : machine.step.1.Branchless := by
  rw [Branchless, machine.step_frame.2.1]
  exact h

theorem Branchless.pc_step (h : machine.Branchless) (hstep : machine.step.2 ≠ .halted) :
    machine.step.1.pc = machine.pc + 1 := by
  obtain ⟨instruction, hfetch, hnext | ⟨target, htarget, -⟩⟩ := pc_step_cases hstep
  · exact hnext
  · rw [h instruction (Array.mem_of_getElem? hfetch)] at htarget
    cases htarget

/-! ## Many steps -/

theorem BranchesForward.add_le_pc (h : machine.BranchesForward) {count : Nat}
    (hgoes : ∀ k < count, (machine.stepped k).step.2 = .continued) :
    machine.pc + count ≤ (machine.stepped count).pc := by
  refine (goes_induction (P := fun k reached => reached.BranchesForward
    ∧ machine.pc + k ≤ reached.pc) ?_ ⟨h, Nat.le_refl _⟩ hgoes).2
  rintro k reached ⟨hforward, hpc⟩ hgoes
  have hraised := hforward.pc_lt (by rw [hgoes]; simp)
  exact ⟨hforward.step, by omega⟩

theorem Branchless.pc_stepped (h : machine.Branchless) {count : Nat}
    (hgoes : ∀ k < count, (machine.stepped k).step.2 = .continued) :
    (machine.stepped count).pc = machine.pc + count := by
  refine (goes_induction (P := fun k reached => reached.Branchless
    ∧ reached.pc = machine.pc + k) ?_ ⟨h, rfl⟩ hgoes).2
  rintro k reached ⟨hbranchless, hpc⟩ hgoes
  have hraised := hbranchless.pc_step (by rw [hgoes]; simp)
  exact ⟨hbranchless.step, by omega⟩

/-- As long as the machine goes on, the counter has room above it. -/
theorem BranchesForward.le_of_goes (h : machine.BranchesForward) {count : Nat}
    (hgoes : ∀ k < count, (machine.stepped k).step.2 = .continued) :
    count ≤ machine.instructions.size - machine.pc := by
  cases count with
  | zero => exact Nat.zero_le _
  | succ count =>
      have hraised := h.add_le_pc fun k (hk : k < count) => hgoes k (by omega)
      have hinside := pc_lt_size_of_step (by rw [hgoes count (by omega)]; simp)
      rw [(machine.stepped_frame count).2.1] at hinside
      omega

/-- What stops a machine without branches is a register that is not there. -/
theorem Branchless.exists_missing (h : machine.Branchless) {count : Nat} {error : Error}
    (hgoes : ∀ k < count, (machine.stepped k).step.2 = .continued)
    (hfailed : (machine.stepped count).step.2 = .failed error) :
    ∃ instruction register, machine.instructions[machine.pc + count]? = some instruction
      ∧ register ∈ instruction.operation.registers
      ∧ machine.registers.size ≤ register.toNat
      ∧ error = .registerOutOfBounds register machine.registers.size := by
  obtain ⟨-, hinstructions, hsize⟩ := machine.stepped_frame count
  obtain ⟨instruction, hfetch, heffect, -⟩ := step_of_failed hfailed
  rw [hinstructions, h.pc_stepped hgoes] at hfetch
  cases Operation.effect_eq_error_iff.1 heffect with
  | register hmissing =>
      obtain ⟨haccess, hout⟩ := Operation.le_of_firstMissing? hmissing
      rw [hsize] at hout ⊢
      exact ⟨instruction, _, hfetch, Operation.mem_registers_of_mem_accesses haccess, hout, rfl⟩
  | target hbranch hvalue htaken hunbound =>
      have htarget := h instruction (Array.mem_of_getElem? hfetch)
      rw [hbranch] at htarget
      cases htarget

/-- If every branch whose target is bound goes forward, each instruction that is executed raises the
counter, and a run comes to an end before it has executed more instructions than there are from the
counter on; one that fails counts as executed here. Without branches, and from the start, it
executes all instructions, or fails at one that names a register which is not there. -/
theorem forward_branches_end :
    (∀ machine : Machine, machine.BranchesForward →
        (∀ count, (machine.stepped count).step.2 ≠ .halted →
          (machine.stepped count).pc < (machine.stepped (count + 1)).pc)
        ∧ ∃ after count outcome, outcome ≠ .continued
          ∧ count ≤ machine.instructions.size - machine.pc
          ∧ (outcome ≠ .halted → count < machine.instructions.size - machine.pc)
          ∧ ∀ steps, machine.instructions.size - machine.pc < steps →
            machine.run steps = (after, count, outcome))
      ∧ ∀ machine : Machine, machine.Branchless → machine.pc = 0 →
        ∃ after count outcome,
          (∀ steps, machine.instructions.size < steps → machine.run steps = (after, count, outcome))
          ∧ (outcome = .halted ∧ count = machine.instructions.size
            ∨ ∃ instruction register, machine.instructions[count]? = some instruction
              ∧ register ∈ instruction.operation.registers
              ∧ machine.registers.size ≤ register.toNat
              ∧ outcome = .failed (.registerOutOfBounds register machine.registers.size)) := by
  constructor
  · intro machine h
    refine ⟨fun count hstep => ?_, ?_⟩
    · have hforward : (machine.stepped count).BranchesForward :=
        stepped_induction (fun _ => BranchesForward.step) h count
      rw [stepped_succ_eq_step]
      exact hforward.pc_lt hstep
    · obtain ⟨after, count, outcome, hended, hlast, hgoes, hrun⟩ :=
        exists_end_of_bound fun count => h.le_of_goes
      refine ⟨after, count, outcome, hended, h.le_of_goes hgoes, fun hfailed => ?_, hrun⟩
      -- the instruction at fault is one more that the counter still pointed at
      have hraised := h.add_le_pc hgoes
      have hinside := pc_lt_size_of_step (by rwa [hlast])
      rw [(machine.stepped_frame count).2.1] at hinside
      omega
  · intro machine h hstart
    obtain ⟨after, count, outcome, hended, hlast, hgoes, hrun⟩ :=
      exists_end_of_bound fun count => h.branchesForward.le_of_goes
    rw [hstart, Nat.sub_zero] at hrun
    refine ⟨after, count, outcome, hrun, ?_⟩
    cases outcome with
    | continued => exact absurd rfl hended
    | halted =>
        have houtside := (size_le_pc_of_halted (congrArg Prod.snd hlast)).1
        have hcount := h.branchesForward.le_of_goes hgoes
        rw [(machine.stepped_frame count).2.1, h.pc_stepped hgoes] at houtside
        exact .inl ⟨rfl, by omega⟩
    | failed error =>
        obtain ⟨instruction, register, hfetch, hnamed, hout, rfl⟩ :=
          h.exists_missing hgoes (congrArg Prod.snd hlast)
        rw [hstart, Nat.zero_add] at hfetch
        exact .inr ⟨instruction, register, hfetch, hnamed, hout, rfl⟩

/-- A branch over another instruction, one to a label that nothing binds, and one far out of the
program. -/
def skippingAhead : Machine where
  registers := ⟨#[1]⟩
  labels := ⟨[("b", 2), ("far", 99)], by decide⟩
  instructions :=
    #[⟨"", .branch 0 "b"⟩, ⟨"", .branch 0 "nowhere"⟩, ⟨"b", .print 0⟩, ⟨"", .branch 0 "far"⟩]

/-- The second of two prints is of a register that is not there. -/
def printingTwice : Machine where
  registers := ⟨#[1]⟩
  labels := {}
  instructions := #[⟨"", .print 0⟩, ⟨"", .print 1⟩]

theorem forward_branches_end_skippingAhead :
    skippingAhead.BranchesForward ∧ printingTwice.Branchless ∧ printingTwice.pc = 0
      ∧ (∀ steps, 4 < steps → (skippingAhead.run steps).2 = (3, .halted))
      ∧ ∀ steps, 2 < steps →
        (printingTwice.run steps).2 = (1, .failed (.registerOutOfBounds 1 1)) := by
  have hforward : skippingAhead.BranchesForward := by decide
  have hbranchless : printingTwice.Branchless := by
    simp [Branchless, printingTwice, Operation.target?]
  obtain ⟨-, after, count, outcome, -, -, -, hrun⟩ := forward_branches_end.1 _ hforward
  obtain ⟨last, number, ending, hfails, -⟩ := forward_branches_end.2 _ hbranchless rfl
  refine ⟨hforward, hbranchless, rfl, fun steps hsteps => ?_, fun steps hsteps => ?_⟩
  · rw [hrun steps hsteps, ← hrun 5 (by decide)]
    decide
  · rw [hfails steps hsteps, ← hfails 3 (by decide)]
    decide

end Machine

end RegisterMachine
