import RegisterMachine.Proofs.Indifference
import RegisterMachine.Proofs.Lockstep
import RegisterMachine.Proofs.OwnerUse

/-!
# A machine that is reset starts over

A reset puts zero into the registers and into the counter, and leaves it at that.
It is enough, because of what a machine goes by nothing else can have changed:
the program and the number of registers are kept by every use, and the label
table by all but the edits of its owner. So a machine that is reset is `Alike`
the machine that it was when it was new, as long as nobody has edited its
labels, and machines that are alike go on alike.

What it printed before stays on the console. That does no harm, since a machine
never reads its console, and it prints the same lines again behind the old ones.
-/

namespace RegisterMachine

namespace Machine

variable {machine other : Machine}

theorem Alike.symm (h : machine.Alike other) : other.Alike machine :=
  ⟨h.registers.symm, h.labels.symm, h.pc.symm, h.operations.symm⟩

theorem lockstep_alike : Stepper.Lockstep step step Alike := by
  intro machine other h
  obtain ⟨houtcome, -, -⟩ := h.stepped 0
  obtain ⟨-, hafter, -⟩ := h.stepped 1
  exact ⟨houtcome.symm, hafter⟩

theorem Alike.run (h : machine.Alike other) (steps : Nat) :
    (other.run steps).2 = (machine.run steps).2 := by
  obtain ⟨hend, -⟩ := run_of_lockstep lockstep_alike h.symm steps
  rw [hend, Machine.run, runFrom_eq]

/-- What has been used and then reset goes by the same as what is new. -/
theorem alike_reset (config : Config) (program : Program) (console : Console) {uses : List Use}
    (huses : ∀ use ∈ uses, use.editsLabels = false) :
    (initial config program console).Alike
      ((initial config program console).useAll uses).reset := by
  have hkept := kept_useAll uses (initial config program console)
  refine ⟨?_, labels_useAll huses, rfl, ?_⟩
  · show RegisterFile.zeros _ = RegisterFile.zeros config.registers
    rw [hkept.size]
    exact congrArg RegisterFile.zeros (RegisterFile.size_zeros config.registers)
  · exact congrArg (Array.map (·.operation)) hkept.instructions

/-- Whatever was done with a new machine short of editing its labels, once it is reset it does again
what it does when it is new. Every step comes to the same, with the same counter and registers
after it; the lines that it prints are those that the new machine prints, behind all that had been
printed before; and a run ends after as many steps and in the same way. -/
theorem rerun_of_reset {config : Config} {program : Program} {console : Console} {machine : Machine}
    (hnew : Machine.new config program console = .ok machine) {uses : List Use}
    (huses : ∀ use ∈ uses, use.editsLabels = false) :
    let reached := machine.useAll uses
    (∀ count, (reached.reset.stepped count).step.2 = (machine.stepped count).step.2
        ∧ (reached.reset.stepped count).pc = (machine.stepped count).pc
        ∧ (reached.reset.stepped count).registers = (machine.stepped count).registers
        ∧ ∃ printed : Array String,
          (machine.stepped count).console.lines = console.lines ++ printed
            ∧ (reached.reset.stepped count).console.lines = reached.console.lines ++ printed)
      ∧ ∀ steps, (reached.reset.run steps).2 = (machine.run steps).2 := by
  intro reached
  obtain ⟨-, rfl⟩ := eq_initial_of_new hnew
  have halike := alike_reset config program console huses
  refine ⟨fun count => ?_, halike.run⟩
  obtain ⟨houtcome, hafter, hprinted⟩ := halike.stepped count
  exact ⟨houtcome, hafter.pc, hafter.registers, hprinted⟩

/-- Prints a register, and then takes a branch that leads nowhere. -/
def deadEnd : Program where
  labels := ⟨[("start", 0)], by decide⟩
  instructions := #[⟨"start", .load 0 5⟩, ⟨"", .print 0⟩, ⟨"", .branch 0 "end"⟩]

theorem rerun_of_reset_deadEnd :
    let uses : List Use := [.run 9, .act (.write 1 7), .act (.execute ⟨"", .arith .div 0 1 0⟩),
      .act (.goto 1), .act .step]
    ∃ machine, Machine.new { registers := 2 } deadEnd {} = .ok machine
      ∧ (machine.useAll uses).console.lines = #["5", "1"]
      ∧ ((machine.useAll uses).reset.stepped 2).step.2 = .failed (.undefinedLabel "end")
      ∧ ((machine.useAll uses).reset.stepped 2).registers = (machine.stepped 2).registers
      ∧ (∃ printed : Array String, (machine.stepped 2).console.lines = #[] ++ printed
          ∧ ((machine.useAll uses).reset.stepped 2).console.lines = #["5", "1"] ++ printed)
      ∧ ((machine.useAll uses).reset.run 9).2 = (machine.run 9).2 := by
  intro uses
  have hnew : Machine.new { registers := 2 } deadEnd {}
      = .ok (initial { registers := 2 } deadEnd {}) :=
    new_eq_ok (by decide) (by decide) deadEnd {}
  have huses : ∀ use ∈ uses, use.editsLabels = false := by decide
  obtain ⟨hsteps, hrun⟩ := rerun_of_reset hnew huses
  obtain ⟨houtcome, -, hregisters, printed, hprinted, hagain⟩ := hsteps 2
  have hlines : ((initial { registers := 2 } deadEnd {}).useAll uses).console.lines
      = #["5", "1"] := by decide +kernel
  rw [hlines] at hagain
  exact ⟨_, hnew, hlines, houtcome.trans (by decide +kernel), hregisters,
    ⟨printed, hprinted, hagain⟩, hrun 9⟩

end Machine

end RegisterMachine
