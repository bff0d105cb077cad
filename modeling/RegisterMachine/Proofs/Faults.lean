import RegisterMachine.CommandLine.Invocation
import RegisterMachine.Proofs.Effects
import RegisterMachine.Proofs.Stepping

/-!
# Faults are exact, and leave no trace but the counter

A step fails just when its operation does, with the fault that the operation
has, and then all that it has done is to move the counter past the instruction.
So the step can be taken back by moving the counter back, and taken again with
the same end; and the instruction just before the counter is the one at fault,
however the run came there. That is the one that a stopped invocation names.

The log is no part of this. A machine that is traced logs an instruction before
it is executed, hence also one that fails.
-/

namespace RegisterMachine

namespace Machine

variable {machine after : Machine} {instruction : Instruction} {error : Error}

theorem step_failed_iff (hfetch : machine.instructions[machine.pc]? = some instruction) :
    machine.step.2 = .failed error
      ↔ instruction.operation.FailsWith machine.registers machine.labels error := by
  rw [← Operation.effect_eq_error_iff]
  cases h : instruction.operation.effect machine.registers machine.labels with
  | ok effect =>
      rw [step_of_effect hfetch h]
      exact ⟨nofun, nofun⟩
  | error other =>
      rw [step_of_fault hfetch h]
      simp

theorem step_again (h : machine.step.2 = .failed error) :
    { machine.step.1 with pc := machine.step.1.pc - 1 }.step.2 = .failed error
      ∧ { machine.step.1 with pc := machine.step.1.pc - 1 }.step.1.unlogged
        = machine.step.1.unlogged := by
  obtain ⟨instruction, hfetch, heffect, hstep⟩ := step_of_failed h
  obtain ⟨log, hfetched⟩ := machine.fetched_eq instruction
  -- Moving the counter back gives the machine before the step, but for what was logged.
  have hback : { machine.step.1 with pc := machine.step.1.pc - 1 } = { machine with log } := by
    rw [hstep, hfetched]
    rfl
  have hagain : ({ machine with log } : Machine).step
      = (fetched { machine with log } instruction, .failed error) :=
    step_of_fault hfetch heffect
  rw [hback, hagain, hstep]
  refine ⟨rfl, ?_⟩
  rw [unlogged_fetched, unlogged_fetched]
  rfl

theorem exists_failsWith_iff {registers : RegisterFile} {labels : LabelTable}
    {operation : Operation} :
    (∃ error, operation.FailsWith registers labels error)
      ↔ (∃ register ∈ operation.accesses registers, registers.size ≤ register.toNat)
        ∨ ∃ register value target, operation = .branch register target
            ∧ registers.Holds register value ∧ value ≠ 0 ∧ target ∉ labels.names := by
  constructor
  · rintro ⟨error, h⟩
    cases h with
    | register hmissing => exact .inl ⟨_, Operation.le_of_firstMissing? hmissing⟩
    | target hbranch hvalue htaken hunbound =>
        exact .inr ⟨_, _, _, hbranch, hvalue, htaken, hunbound⟩
  · rintro (⟨register, hmem, hsize⟩ | ⟨register, value, target, hbranch, hvalue, htaken, hunbound⟩)
    · cases hfirst : Operation.firstMissing? registers (operation.accesses registers) with
      | some first => exact ⟨_, .register hfirst⟩
      | none =>
          have hpresent := Operation.firstMissing?_eq_none_iff.1 hfirst register hmem
          omega
    · exact ⟨_, .target hbranch hvalue htaken hunbound⟩

/-- A run that failed did so at the instruction just before the counter. -/
theorem culprit_of_run {steps count : Nat}
    (h : machine.run steps = (after, count, .failed error)) :
    ∃ instruction, after.instructions[after.pc - 1]? = some instruction
      ∧ instruction.operation.FailsWith after.registers after.labels error
      ∧ (machine.stepped count).pc + 1 = after.pc
      ∧ (machine.stepped count).step = (after, .failed error) := by
  obtain ⟨hlast, -⟩ := step_of_run h nofun
  obtain ⟨instruction, hfetch, heffect, hstep⟩ := step_of_failed (congrArg Prod.snd hlast)
  obtain rfl : after = (machine.stepped count).fetched instruction :=
    congrArg Prod.fst (hlast.symm.trans hstep)
  rw [fetched_instructions, fetched_registers, fetched_labels, fetched_pc, Nat.add_sub_cancel]
  exact ⟨instruction, hfetch, Operation.effect_eq_error_iff.1 heffect, rfl, hlast⟩

/-- A step fails just when its instruction comes to a register that is not there, or is a taken
branch to a label that is not bound, and with just that fault. All that it then has done is to move
the counter, so that taking it back and trying again comes to the same. Wherever a run was started,
the instruction before the counter is the one that it failed at, and the one that is reported. -/
theorem failed_step_exact (machine : Machine) :
    (∀ instruction, machine.instructions[machine.pc]? = some instruction →
        ((∃ error, machine.step.2 = .failed error)
            ↔ (∃ register ∈ instruction.operation.accesses machine.registers,
                  machine.registers.size ≤ register.toNat)
              ∨ ∃ register value target, instruction.operation = .branch register target
                  ∧ machine.registers.Holds register value ∧ value ≠ 0
                  ∧ target ∉ machine.labels.names)
          ∧ ∀ error, machine.step.2 = .failed error
              ↔ instruction.operation.FailsWith machine.registers machine.labels error)
      ∧ (∀ error, machine.step.2 = .failed error →
          machine.step.1.unlogged = { machine.unlogged with pc := machine.pc + 1 }
            ∧ { machine.step.1 with pc := machine.step.1.pc - 1 }.step.2 = .failed error
            ∧ { machine.step.1 with pc := machine.step.1.pc - 1 }.step.1.unlogged
              = machine.step.1.unlogged)
      ∧ (∀ steps after count error, machine.run steps = (after, count, .failed error) →
          (∃ instruction, after.instructions[after.pc - 1]? = some instruction
              ∧ instruction.operation.FailsWith after.registers after.labels error)
            ∧ (machine.stepped count).step = (after, .failed error)
            ∧ (machine.stepped count).pc + 1 = after.pc
            ∧ (CommandLine.stoppedEntry after error).message
              = "Execution stopped at instruction "
                ++ Numeral.ofNat (machine.stepped count).pc ++ ": " ++ error.message) := by
  refine ⟨?_, ?_, ?_⟩
  · intro instruction hfetch
    refine ⟨?_, fun error => step_failed_iff hfetch⟩
    rw [← exists_failsWith_iff]
    exact exists_congr fun error => step_failed_iff hfetch
  · intro error hfailed
    obtain ⟨instruction, -, -, hstep⟩ := step_of_failed hfailed
    refine ⟨?_, step_again hfailed⟩
    rw [hstep]
    exact machine.unlogged_fetched instruction
  · intro steps after count error hrun
    obtain ⟨instruction, hculprit, hfails, hpc, hstep⟩ := culprit_of_run hrun
    refine ⟨⟨instruction, hculprit, hfails⟩, hstep, hpc, ?_⟩
    rw [CommandLine.stoppedEntry, ← hpc, Nat.add_sub_cancel]

/-- A division by zero that hides a result that is not there, and after it a taken branch that
leads nowhere. -/
def hiddenFault : Machine where
  registers := ⟨#[1, 0]⟩
  labels := {}
  instructions := #[⟨"", .arith .div 5 0 1⟩, ⟨"", .branch 0 "nowhere"⟩]

theorem failed_step_exact_hiddenFault :
    let failing := hiddenFault.stepped 1
    failing.instructions[failing.pc]? = some ⟨"", .branch 0 "nowhere"⟩
      ∧ failing.step.2 = .failed (.undefinedLabel "nowhere")
      ∧ (Operation.branch 0 "nowhere").FailsWith failing.registers failing.labels
          (.undefinedLabel "nowhere")
      ∧ failing.step.1.unlogged = { failing.unlogged with pc := 2 }
      ∧ hiddenFault.run 9 = (failing.step.1, 1, .failed (.undefinedLabel "nowhere"))
      ∧ (CommandLine.stoppedEntry failing.step.1 (.undefinedLabel "nowhere")).message
        = "Execution stopped at instruction 1: undefined label: nowhere" := by
  intro failing
  have hfetch : failing.instructions[failing.pc]? = some ⟨"", .branch 0 "nowhere"⟩ := by decide
  have hfailed : failing.step.2 = .failed (.undefinedLabel "nowhere") := by decide
  have hrun : hiddenFault.run 9 = (failing.step.1, 1, .failed (.undefinedLabel "nowhere")) := by
    decide
  obtain ⟨hexact, hatomic, -⟩ := failed_step_exact failing
  obtain ⟨-, -, hreport⟩ := failed_step_exact hiddenFault
  refine ⟨hfetch, hfailed, (hexact _ hfetch).2 _ |>.1 hfailed, (hatomic _ hfailed).1, hrun, ?_⟩
  exact (hreport _ _ _ _ hrun).2.2.2

end Machine

end RegisterMachine
