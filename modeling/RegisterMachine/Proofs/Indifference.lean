import RegisterMachine.Proofs.Output

/-!
# What a machine goes by

A machine goes by its registers, its label table, its counter, and the
operations of its program. The labels that its instructions bear are shown in
listings and nowhere consulted, and what it writes it never reads. So `core`
drops all of this, and a machine does what its core does, after the lines that
were there before (`stepped_unlabelled`). Machines with the same core are `Alike`,
and go on alike.

The label table is on the other side of the line. A branch looks its target up
in it, and never among the labels of the instructions.

One consequence is about a single machine. When it comes back to registers and a
counter that it had before, it is alike to what it was, because no step reaches
the table or the program; it then does again what it did, and never stops. That
it may have printed in between does not matter.
-/

namespace RegisterMachine

def Instruction.unlabelled (instruction : Instruction) : Instruction :=
  { instruction with label := "" }

namespace Machine

variable {machine other : Machine}

/-! ## The core of a machine -/

/-- The machine with nothing but what it goes by. -/
def core (machine : Machine) : Machine where
  registers := machine.registers
  labels := machine.labels
  instructions := machine.instructions.map Instruction.unlabelled
  pc := machine.pc

/-- The machine whose instructions bear no labels, and which logs nothing. -/
def unlabelled (machine : Machine) : Machine :=
  { machine.core with console := machine.console }

theorem commutes_unlabelled (machine : Machine) :
    Commutes unlabelled Instruction.unlabelled id machine where
  pc := rfl
  instructions := rfl
  fetched instruction := by
    obtain ⟨log, h⟩ := machine.fetched_eq instruction
    rw [h]
    rfl
  effect instruction _ := by
    rw [mapError_id]
    rfl
  apply instruction effect _ _ := by cases effect <;> rfl

theorem unlabelled_eq_preceded (machine : Machine) :
    machine.unlabelled = preceded machine.console #[] machine.core := by
  rw [unlabelled, preceded, core, Array.append_empty, Array.append_empty]

/-- A machine does what its core does. -/
theorem stepped_unlabelled (machine : Machine) (count : Nat) :
    (machine.stepped count).unlabelled
      = preceded machine.console #[] (machine.core.stepped count) := by
  rw [← stepped_of_commutes fun k _ => commutes_unlabelled (machine.stepped k),
    unlabelled_eq_preceded, (transparent_preceded machine.console #[]).stepped]

theorem outcome_stepped_core (machine : Machine) (count : Nat) :
    (machine.core.stepped count).step.2 = (machine.stepped count).step.2 := by
  have hunlabelled := (commutes_unlabelled (machine.stepped count)).step
  rw [stepped_unlabelled, (transparent_preceded machine.console #[]).step,
    Outcome.map_id] at hunlabelled
  exact (Prod.ext_iff.1 hunlabelled).2

/-! ## Machines that are alike -/

/-- Two machines that go by the same. -/
structure Alike (machine other : Machine) : Prop where
  registers : other.registers = machine.registers
  labels : other.labels = machine.labels
  pc : other.pc = machine.pc
  operations : other.instructions.map (·.operation) = machine.instructions.map (·.operation)

theorem Alike.core_eq (h : machine.Alike other) : other.core = machine.core := by
  have hinstructions : other.instructions.map Instruction.unlabelled
      = machine.instructions.map Instruction.unlabelled := by
    have hsame := congrArg (Array.map (Instruction.mk "")) h.operations
    rwa [Array.map_map, Array.map_map] at hsame
  rw [core, core, h.registers, h.labels, h.pc, hinstructions]

/-- Machines that are alike take the same steps, and add the same lines to their consoles. -/
theorem Alike.stepped (h : machine.Alike other) (count : Nat) :
    (other.stepped count).step.2 = (machine.stepped count).step.2
      ∧ (machine.stepped count).Alike (other.stepped count)
      ∧ ∃ printed : Array String,
        (machine.stepped count).console.lines = machine.console.lines ++ printed
          ∧ (other.stepped count).console.lines = other.console.lines ++ printed := by
  have hmachine := machine.stepped_unlabelled count
  have hother := other.stepped_unlabelled count
  rw [h.core_eq] at hother
  obtain ⟨hlabels, hinstructions, -⟩ := machine.stepped_frame count
  obtain ⟨hlabelsOther, hinstructionsOther, -⟩ := other.stepped_frame count
  refine ⟨?_, ⟨?_, ?_, ?_, ?_⟩, (machine.core.stepped count).console.lines, ?_, ?_⟩
  · rw [← outcome_stepped_core, h.core_eq, outcome_stepped_core]
  · exact (congrArg Machine.registers hother).trans (congrArg Machine.registers hmachine).symm
  · rw [hlabels, hlabelsOther, h.labels]
  · exact (congrArg Machine.pc hother).trans (congrArg Machine.pc hmachine).symm
  · rw [hinstructions, hinstructionsOther, h.operations]
  · exact congrArg (·.console.lines) hmachine
  · exact congrArg (·.console.lines) hother

/-! ## A machine that comes back -/

theorem alike_of_recurs {i j : Nat} (hpc : (machine.stepped j).pc = (machine.stepped i).pc)
    (hregisters : (machine.stepped j).registers = (machine.stepped i).registers) :
    (machine.stepped i).Alike (machine.stepped j) := by
  obtain ⟨hlabels, hinstructions, -⟩ := machine.stepped_frame i
  obtain ⟨hlabelsLater, hinstructionsLater, -⟩ := machine.stepped_frame j
  refine ⟨hregisters, ?_, hpc, ?_⟩
  · rw [hlabels, hlabelsLater]
  · rw [hinstructions, hinstructionsLater]

/-- What comes back goes on for ever. -/
theorem goes_of_recurs {i j : Nat} (hlater : i < j)
    (hgoes : ∀ k < j, (machine.stepped k).step.2 = .continued)
    (h : (machine.stepped i).Alike (machine.stepped j)) (count : Nat) :
    (machine.stepped count).step.2 = .continued := by
  -- A step from `j` on comes to what the step as far behind `i` came to, which was earlier.
  induction count using Nat.strongRecOn with
  | ind count ih =>
      rcases Nat.lt_or_ge count j with hcount | hcount
      · exact hgoes count hcount
      · obtain ⟨more, rfl⟩ := Nat.exists_eq_add_of_le hcount
        rw [stepped_add, (h.stepped more).1, ← stepped_add]
        exact ih (i + more) (by omega)

/-- Machines that have the same registers, label table and counter, and the same operations in their
programs, take the same steps and print the same lines, whatever labels their instructions bear,
whatever was printed before and whether or not they are traced. So a machine that has come back to
the registers and the counter that it had some steps before goes on for ever. -/
theorem alike_go_alike :
    (∀ machine other : Machine, machine.Alike other → ∀ count,
        (other.stepped count).step.2 = (machine.stepped count).step.2
          ∧ (other.stepped count).pc = (machine.stepped count).pc
          ∧ (other.stepped count).registers = (machine.stepped count).registers
          ∧ ∃ printed : Array String,
            (machine.stepped count).console.lines = machine.console.lines ++ printed
              ∧ (other.stepped count).console.lines = other.console.lines ++ printed)
      ∧ ∀ (machine : Machine) (i j : Nat), i < j →
        (∀ k < j, (machine.stepped k).step.2 = .continued) →
        (machine.stepped j).pc = (machine.stepped i).pc →
        (machine.stepped j).registers = (machine.stepped i).registers →
        (∀ count, (machine.stepped count).step.2 = .continued)
          ∧ ∀ steps, machine.run steps = (machine.stepped steps, steps, .continued) := by
  constructor
  · intro machine other h count
    obtain ⟨houtcome, hafter, hprinted⟩ := h.stepped count
    exact ⟨houtcome, hafter.pc, hafter.registers, hprinted⟩
  · intro machine i j hlater hgoes hpc hregisters
    have hforever := goes_of_recurs hlater hgoes (alike_of_recurs hpc hregisters)
    exact ⟨hforever, fun steps => run_of_goes fun k _ => hforever k⟩

/-- A loop that prints the register by which it branches back. -/
def ticking : Machine where
  registers := ⟨#[7]⟩
  labels := ⟨[("tick", 0)], by decide⟩
  instructions := #[⟨"tick", .print 0⟩, ⟨"", .branch 0 "tick"⟩]

/-- The same loop under other labels, traced, and after a line of output. -/
def tickingElsewhere : Machine where
  registers := ⟨#[7]⟩
  labels := ⟨[("tick", 0)], by decide⟩
  instructions := #[⟨"", .print 0⟩, ⟨"tock", .branch 0 "tick"⟩]
  console := ⟨#["0"]⟩
  trace := true

theorem alike_go_alike_ticking :
    ticking.Alike tickingElsewhere
      ∧ (tickingElsewhere.stepped 3).registers = (ticking.stepped 3).registers
      ∧ (∃ printed : Array String, (ticking.stepped 3).console.lines = #[] ++ printed
          ∧ (tickingElsewhere.stepped 3).console.lines = #["0"] ++ printed)
      ∧ (ticking.stepped 2).pc = 0 ∧ (ticking.stepped 2).console.lines = #["7"]
      ∧ ∀ steps, (ticking.run steps).2 = (steps, .continued) := by
  have halike : ticking.Alike tickingElsewhere :=
    ⟨rfl, rfl, rfl, by simp [ticking, tickingElsewhere]⟩
  obtain ⟨hlike, hrecurs⟩ := alike_go_alike
  obtain ⟨-, -, hregisters, hprinted⟩ := hlike _ _ halike 3
  have hgoes : ∀ k < 2, (ticking.stepped k).step.2 = .continued := by decide
  obtain ⟨-, hrun⟩ := hrecurs ticking 0 2 (by decide) hgoes (by decide) (by decide)
  exact ⟨halike, hregisters, hprinted, by decide, by decide +kernel,
    fun steps => congrArg Prod.snd (hrun steps)⟩

end Machine

end RegisterMachine
