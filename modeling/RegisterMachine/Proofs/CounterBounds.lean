import RegisterMachine.Proofs.BranchTargets
import RegisterMachine.Proofs.Contribution

/-!
# The counter of an assembled program stays within it

The label table of an assembled program is the index of its instructions, so a
jump always lands on an instruction, and on the one that bears the target. All
else moves the counter from an instruction to the place behind it. So the
counter never gets further than just behind the last instruction, and a run that
comes to an end without a fault ends there.

`Linked` is the invariant: it holds of a machine with such a table, and every
act keeps it that neither edits the table nor sets the counter. Writing
registers, executing instructions from elsewhere and starting over are harmless.
-/

namespace RegisterMachine

/-- Whether an act may send the counter elsewhere: by setting it, or by editing the labels. -/
def Act.redirects : Act → Bool
  | goto _ => true
  | act => act.editsLabels

namespace Machine

variable {machine : Machine}

/-- Each label stands for an instruction that bears it, and the counter is in the program or just
behind it. -/
structure Linked (machine : Machine) : Prop where
  bound : ∀ label index, machine.labels.find? label = some index →
    label ≠ "" ∧ ∃ made, machine.instructions[index]? = some made ∧ made.label = label
  pc_le : machine.pc ≤ machine.instructions.size

theorem Linked.index_lt (h : machine.Linked) {label : String} {index : Nat}
    (hfind : machine.labels.find? label = some index) : index < machine.instructions.size := by
  obtain ⟨-, made, hmade, -⟩ := h.bound label index hfind
  exact (Array.getElem?_eq_some_iff.1 hmade).1

theorem Linked.of_pc_le {after : Machine} (h : machine.Linked)
    (hlabels : after.labels = machine.labels)
    (hinstructions : after.instructions = machine.instructions)
    (hpc : after.pc ≤ machine.instructions.size) : after.Linked := by
  refine ⟨?_, by rwa [hinstructions]⟩
  rw [hlabels, hinstructions]
  exact h.bound

theorem Linked.pc_apply_le {operation : Operation} {effect : Effect} {other : Machine}
    (h : machine.Linked) (heffect : operation.effect machine.registers machine.labels = .ok effect)
    (hother : other.pc ≤ machine.instructions.size) :
    (other.apply effect).pc ≤ machine.instructions.size := by
  obtain hstay | ⟨register, target, -, hfind⟩ :=
    pc_apply_cases (Operation.effect_eq_ok_iff.1 heffect) other
  · rwa [hstay]
  · exact Nat.le_of_lt (h.index_lt hfind)

theorem Linked.step (h : machine.Linked) : machine.step.1.Linked := by
  obtain ⟨hlabels, hinstructions, -⟩ := machine.step_frame
  refine h.of_pc_le hlabels hinstructions ?_
  obtain ⟨-, hstep⟩ | ⟨instruction, effect, hfetch, heffect, hstep⟩ |
    ⟨instruction, error, hfetch, -, hstep⟩ := machine.step_cases
  · rw [hstep]
    exact h.pc_le
  · have hpc := (Array.getElem?_eq_some_iff.1 hfetch).1
    rw [hstep]
    exact h.pc_apply_le heffect (by rw [fetched_pc]; omega)
  · have hpc := (Array.getElem?_eq_some_iff.1 hfetch).1
    rw [hstep, fetched_pc]
    omega

theorem Linked.execute (h : machine.Linked) (instruction : Instruction) :
    (machine.execute instruction).1.Linked := by
  obtain ⟨hlabels, hinstructions, -⟩ := machine.execute_frame instruction
  refine h.of_pc_le hlabels hinstructions ?_
  obtain ⟨effect, heffect, hexecute⟩ | ⟨error, -, hexecute⟩ := machine.execute_cases instruction
  · rw [hexecute]
    exact h.pc_apply_le heffect h.pc_le
  · rw [hexecute]
    exact h.pc_le

theorem Linked.perform {act : Act} (hact : act.redirects = false) (h : machine.Linked) :
    (machine.perform act).1.Linked := by
  cases act with
  | step => exact h.step
  | execute instruction => exact h.execute instruction
  | write register value =>
      rw [Machine.perform]
      split
      · exact h.of_pc_le rfl rfl h.pc_le
      · exact h
  | clear => exact h.of_pc_le rfl rfl h.pc_le
  | reset => exact h.of_pc_le rfl rfl (Nat.zero_le _)
  | goto _ | define _ _ | rebind _ _ | unbindAll => cases hact

theorem Linked.performAll {acts : List Act} (hacts : ∀ act ∈ acts, act.redirects = false)
    (h : machine.Linked) : (machine.performAll acts).Linked :=
  performAll_induction (fun _ _ => Linked.perform) hacts h

theorem Linked.run (h : machine.Linked) (steps : Nat) : (machine.run steps).1.Linked := by
  obtain ⟨count, hcount⟩ := machine.exists_stepped_of_run steps
  rw [hcount]
  exact stepped_induction (fun _ => Linked.step) h count

theorem linked_of_indexed {program : Program} (hindexed : program.Indexed)
    (hlabels : machine.labels = program.labels)
    (hinstructions : machine.instructions = program.instructions) (hpc : machine.pc = 0) :
    machine.Linked := by
  refine ⟨?_, by omega⟩
  intro label index hfind
  rw [hlabels] at hfind
  rw [hinstructions]
  exact hindexed.find?_iff.1 hfind

theorem Linked.target_of_branch (h : machine.Linked) {label target : String} {register : UInt64}
    {value : Int64}
    (hfetch : machine.instructions[machine.pc]? = some ⟨label, .branch register target⟩)
    (hvalue : machine.registers.Holds register value) (htaken : value ≠ 0)
    (hgoes : machine.step.2 = .continued) :
    ∃ made, machine.instructions[machine.step.1.pc]? = some made ∧ made.label = target
      ∧ target ≠ "" := by
  obtain ⟨hjump, -⟩ := step_branch_iff hfetch hvalue htaken
  obtain ⟨hlabel, made, hmade, rfl⟩ := h.bound _ _ ((hjump _).1 ⟨hgoes, rfl⟩)
  exact ⟨made, hmade, rfl, hlabel⟩

theorem Linked.pc_of_halted (h : machine.Linked) {steps count : Nat} {after : Machine}
    (hrun : machine.run steps = (after, count, .halted)) : after.pc = after.instructions.size := by
  have hlinked := h.run steps
  rw [hrun] at hlinked
  exact Nat.le_antisymm hlinked.pc_le (size_le_pc_of_run hrun)

end Machine

/-- Whatever ended the reading of a source, a machine is built for the assembled program with any
number of registers that can be had. As long as nobody edits its labels or sets its counter, the
counter stays within the program or just behind it, a taken branch goes to the instruction that
bears its target, and a run that halts does so just behind the program. -/
theorem counter_within_assembled (vocabulary : Vocabulary) (source : Source)
    (workspace : Workspace) (console : Console) {config : Config}
    (hregisters : 0 < config.registers) :
    let program := (vocabulary.assemble source workspace).1.program
    let built := Machine.new config program console
    (config.registers < RegisterFile.limit → ∃ machine, built = .ok machine)
      ∧ ∀ machine, built = .ok machine →
        ∀ acts : List Act, (∀ act ∈ acts, act.redirects = false) →
        let reached := machine.performAll acts
        reached.pc ≤ program.size
          ∧ (∀ label register value target,
              program.instructions[reached.pc]? = some ⟨label, .branch register target⟩ →
              reached.registers.Holds register value → value ≠ 0 →
              reached.step.2 = .continued →
              ∃ made, program.instructions[reached.step.1.pc]? = some made
                ∧ made.label = target ∧ target ≠ "")
          ∧ ∀ steps after count outcome, reached.run steps = (after, count, outcome) →
              after.pc ≤ program.size ∧ (outcome = .halted → after.pc = program.size) := by
  intro program built
  refine ⟨Machine.exists_new hregisters program console, fun machine hnew acts hacts => ?_⟩
  intro reached
  obtain ⟨-, rfl⟩ := Machine.eq_initial_of_new hnew
  have hlinked : reached.Linked := (Machine.linked_of_indexed
    (Vocabulary.indexed_assemble source workspace) rfl rfl rfl).performAll hacts
  have hprogram : reached.instructions = program.instructions :=
    Machine.instructions_performAll acts _
  rw [Program.size, ← hprogram]
  refine ⟨hlinked.pc_le, ?_, ?_⟩
  · intro label register value target hfetch hvalue htaken hgoes
    exact hlinked.target_of_branch hfetch hvalue htaken hgoes
  · intro steps after count outcome hrun
    obtain ⟨taken, htaken⟩ := reached.exists_stepped_of_run steps
    have hafter : after.instructions = reached.instructions := by
      rw [← (reached.stepped_frame taken).2.1, ← htaken, hrun]
    have hlast := hlinked.run steps
    rw [hrun] at hlast
    rw [← hafter]
    refine ⟨hlast.pc_le, ?_⟩
    rintro rfl
    exact hlinked.pc_of_halted hrun

/-- A program with a branch over its third instruction. -/
def skipping : Program where
  labels := ⟨[("a", 0), ("b", 1), ("c", 2), ("d", 3)], by decide⟩
  instructions := #[⟨"a", .load 0 1⟩, ⟨"b", .branch 0 "d"⟩, ⟨"c", .print 0⟩, ⟨"d", .print 0⟩]

theorem program_skipping :
    (Vocabulary.standard.assemble (.ofText "a lin 0 1\nb bnz 0 d\nc out 0\nd out 0") {}).1.program
      = skipping := by
  decide +kernel

theorem counter_within_assembled_skipping :
    let acts := [.step, .write 0 (-7)]
    ∃ machine, Machine.new { registers := 1 } skipping {} = .ok machine
      ∧ (machine.performAll acts).pc = 1
      ∧ (machine.performAll acts).step.2 = .continued
      ∧ (∃ made, skipping.instructions[(machine.performAll acts).step.1.pc]? = some made
          ∧ made.label = "d" ∧ "d" ≠ "")
      ∧ ((machine.performAll acts).run 9).2 = (2, .halted)
      ∧ ((machine.performAll acts).run 9).1.pc = skipping.size := by
  intro acts
  obtain ⟨hbuilt, hbounds⟩ := counter_within_assembled .standard
    (.ofText "a lin 0 1\nb bnz 0 d\nc out 0\nd out 0") {} {}
    (show 0 < ({ registers := 1 } : Config).registers by decide)
  rw [program_skipping] at hbuilt hbounds
  obtain ⟨machine, hnew⟩ := hbuilt (by decide)
  obtain rfl := Except.ok.inj hnew
  obtain ⟨-, hbranch, hrun⟩ := hbounds _ hnew acts (by decide)
  refine ⟨_, hnew, by decide, by decide, ?_, by decide, ?_⟩
  · exact hbranch "b" 0 (-7) "d" (by decide) (by decide) (by decide) (by decide)
  · exact (hrun 9 _ 2 .halted rfl).2 rfl

end RegisterMachine
