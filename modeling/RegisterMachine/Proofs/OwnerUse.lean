import RegisterMachine.Proofs.LabelStores

/-!
# What its owner cannot do to a machine

The owner of a machine may do any of the acts of `History`, and let it run. A
run is a number of steps, so it brings nothing new, but it is a thing that one
does, and it may end with a fault. A `Use` is an act or a run.

`Kept` is what survives every use, and it is a relation between a machine and
what becomes of it: the program is the same, there are as many registers, and
what was on the console still is, ahead of all that has come since. It is
reflexive and transitive, so that it has to be checked for one act only, whether
or not the act is refused. The label table is not in it, because its owner may
edit that at will. What cannot be brought about is a table that lists a label
without binding it, and the two stores of `LabelStores` bear that out.
-/

namespace RegisterMachine

/-- What the owner of a machine does with it. -/
inductive Use
  | act (act : Act)
  /-- Lets it run, for so many steps at most. -/
  | run (steps : Nat)
  deriving DecidableEq, Repr

def Use.editsLabels : Use → Bool
  | act one => one.editsLabels
  | run _ => false

namespace Machine

variable {machine before middle after : Machine}

def use (machine : Machine) : Use → Machine
  | .act act => (machine.perform act).1
  | .run steps => (machine.run steps).1

def useAll (machine : Machine) (uses : List Use) : Machine :=
  uses.foldl use machine

theorem useAll_append (front rest : List Use) :
    machine.useAll (front ++ rest) = (machine.useAll front).useAll rest :=
  List.foldl_append

/-! ## What every use keeps -/

/-- What a machine still has in common with what it was. -/
structure Kept (before after : Machine) : Prop where
  instructions : after.instructions = before.instructions
  size : after.registers.size = before.registers.size
  printed : before.console.lines.toList <+: after.console.lines.toList

theorem Kept.refl (machine : Machine) : machine.Kept machine :=
  ⟨rfl, rfl, List.prefix_refl _⟩

theorem Kept.trans (h : before.Kept middle) (hafter : middle.Kept after) : before.Kept after where
  instructions := hafter.instructions.trans h.instructions
  size := hafter.size.trans h.size
  printed := h.printed.trans hafter.printed

theorem kept_apply (machine : Machine) (effect : Effect) : machine.Kept (machine.apply effect) where
  instructions := apply_instructions
  size := apply_size
  printed := by
    cases effect with
    | print value => exact ⟨_, (Console.toList_addLine _ _).symm⟩
    | report error => exact ⟨_, (Console.toList_addLine _ _).symm⟩
    | store register value => exact List.prefix_refl _
    | jump index => exact List.prefix_refl _
    | pass => exact List.prefix_refl _

theorem kept_fetched (machine : Machine) (instruction : Instruction) :
    machine.Kept (machine.fetched instruction) :=
  ⟨fetched_instructions, by simp, by simp⟩

theorem kept_step (machine : Machine) : machine.Kept machine.step.1 := by
  obtain ⟨-, hstep⟩ | ⟨instruction, effect, -, -, hstep⟩ | ⟨instruction, error, -, -, hstep⟩ :=
    machine.step_cases
  · rw [hstep]
    exact .refl machine
  · rw [hstep]
    exact (machine.kept_fetched instruction).trans (kept_apply _ effect)
  · rw [hstep]
    exact machine.kept_fetched instruction

theorem kept_stepped (machine : Machine) (count : Nat) : machine.Kept (machine.stepped count) :=
  stepped_induction (fun _ h => h.trans (kept_step _)) (.refl machine) count

theorem kept_execute (machine : Machine) (instruction : Instruction) :
    machine.Kept (machine.execute instruction).1 := by
  obtain ⟨effect, -, hexecute⟩ | ⟨error, -, hexecute⟩ := machine.execute_cases instruction
  · rw [hexecute]
    exact machine.kept_apply effect
  · rw [hexecute]
    exact .refl machine

theorem kept_perform (machine : Machine) (act : Act) : machine.Kept (machine.perform act).1 := by
  cases act with
  | step => exact machine.kept_step
  | execute instruction => exact machine.kept_execute instruction
  | write register value =>
      rw [perform, RegisterFile.set]
      by_cases hregister : register.toNat < machine.registers.size
      · rw [RegisterFile.check_eq_ok hregister]
        exact ⟨rfl, RegisterFile.size_write _ _ _, List.prefix_refl _⟩
      · rw [RegisterFile.check_eq_error (by omega)]
        exact .refl machine
  | clear => exact ⟨rfl, RegisterFile.size_clear _, List.prefix_refl _⟩
  | reset => exact ⟨rfl, RegisterFile.size_clear _, List.prefix_refl _⟩
  | goto index => exact ⟨rfl, rfl, List.prefix_refl _⟩
  | define label index =>
      rw [perform]
      split <;> exact ⟨rfl, rfl, List.prefix_refl _⟩
  | rebind label index => exact ⟨rfl, rfl, List.prefix_refl _⟩
  | unbindAll => exact ⟨rfl, rfl, List.prefix_refl _⟩

theorem kept_use (machine : Machine) (use : Use) : machine.Kept (machine.use use) := by
  cases use with
  | act act => exact machine.kept_perform act
  | run steps =>
      obtain ⟨count, hcount⟩ := machine.exists_stepped_of_run steps
      rw [Machine.use, hcount]
      exact machine.kept_stepped count

theorem kept_useAll (uses : List Use) :
    ∀ machine : Machine, machine.Kept (machine.useAll uses) := by
  induction uses with
  | nil => exact Kept.refl
  | cons use uses ih => exact fun machine => (machine.kept_use use).trans (ih (machine.use use))

theorem labels_use {use : Use} (h : use.editsLabels = false) :
    (machine.use use).labels = machine.labels := by
  cases use with
  | act act => exact labels_perform h
  | run steps =>
      obtain ⟨count, hcount⟩ := machine.exists_stepped_of_run steps
      rw [Machine.use, hcount]
      exact (machine.stepped_frame count).1

theorem labels_useAll {uses : List Use} :
    ∀ {machine : Machine}, (∀ use ∈ uses, use.editsLabels = false) →
      (machine.useAll uses).labels = machine.labels := by
  induction uses with
  | nil => exact fun _ => rfl
  | cons use uses ih =>
      intro machine huses
      rw [List.forall_mem_cons] at huses
      exact (ih huses.2).trans (labels_use huses.1)

end Machine

/-! ## The two stores of the labels -/

namespace LabelStores

def use (stores : LabelStores) : Use → LabelStores
  | .act act => stores.perform act
  | .run _ => stores

def useAll (stores : LabelStores) (uses : List Use) : LabelStores :=
  uses.foldl use stores

theorem use_ofTable (machine : Machine) (use : Use) :
    (ofTable machine.labels).use use = ofTable (machine.use use).labels := by
  cases use with
  | act act => exact perform_ofTable machine act
  | run steps => rw [Machine.labels_use rfl, LabelStores.use]

theorem useAll_ofTable (uses : List Use) :
    ∀ machine : Machine,
      (ofTable machine.labels).useAll uses = ofTable (machine.useAll uses).labels := by
  induction uses with
  | nil => exact fun machine => rfl
  | cons use uses ih =>
      intro machine
      rw [useAll, List.foldl_cons, use_ofTable]
      exact ih (machine.use use)

end LabelStores

namespace Machine

/-- Whatever its owner does with a machine, in whatever order and with whatever faults, the program
is the one it was built with, and so is the number of registers, which is positive; a register holds
a signed word of sixty-four bits; and what was on the console at any time is on it later, ahead of
all that came after. Where the labels are kept in two stores, these hold what the table does, and
no label is listed twice or without an index. -/
theorem kept_by_every_use {config : Config} {program : Program} {console : Console}
    {machine : Machine} (hnew : Machine.new config program console = .ok machine)
    (uses : List Use) :
    let reached := machine.useAll uses
    let stores := (LabelStores.ofTable program.labels).useAll uses
    reached.instructions = program.instructions
      ∧ (reached.registers.size = config.registers ∧ 0 < config.registers)
      ∧ (∀ value ∈ reached.registers.values,
          -9223372036854775808 ≤ value.toInt ∧ value.toInt < 9223372036854775808)
      ∧ (∀ front rest, uses = front ++ rest →
          (machine.useAll front).console.lines.toList <+: reached.console.lines.toList)
      ∧ (stores.order = reached.labels.names ∧ stores.positions = reached.labels.find?)
      ∧ stores.order.Nodup
      ∧ ∀ label, label ∈ stores.order ↔ ∃ index, stores.positions label = some index := by
  intro reached stores
  obtain ⟨hpos, rfl⟩ := eq_initial_of_new hnew
  have hkept := kept_useAll uses (initial config program console)
  have hstores : stores = .ofTable reached.labels :=
    LabelStores.useAll_ofTable uses (initial config program console)
  refine ⟨hkept.instructions, ⟨?_, hpos⟩, ?_, ?_, ?_, ?_, ?_⟩
  · rw [hkept.size]
    exact RegisterFile.size_zeros config.registers
  · exact fun value _ => ⟨value.le_toInt, value.toInt_lt⟩
  · rintro front rest rfl
    show _ <+: ((initial config program console).useAll (front ++ rest)).console.lines.toList
    rw [useAll_append]
    exact (kept_useAll rest _).printed
  · rw [hstores]
    exact ⟨rfl, rfl⟩
  · rw [hstores]
    exact reached.labels.nodup
  · rw [hstores]
    exact fun label => LabelTable.mem_names_iff

/-- A branch to a label that is not there. -/
def astray : Program where
  labels := ⟨[("here", 0)], by decide⟩
  instructions := #[⟨"here", .print 0⟩, ⟨"", .branch 1 "there"⟩]

/-- The run ends with a fault; the definition after it and the write are refused. -/
theorem kept_by_every_use_astray :
    let uses : List Use := [.act (.write 1 1), .run 5, .act (.define "here" 7), .act (.write 9 9),
      .act (.rebind "there" 0), .act (.execute ⟨"", .arith .div 0 1 0⟩), .act .unbindAll,
      .act (.define "late" 4)]
    let stores := (LabelStores.ofTable astray.labels).useAll uses
    ∃ machine, Machine.new { registers := 2 } astray {} = .ok machine
      ∧ (machine.useAll uses).instructions = astray.instructions
      ∧ (machine.useAll uses).registers.size = 2
      ∧ (machine.useAll (uses.take 2)).console.lines.toList = ["0"]
      ∧ (machine.useAll (uses.take 2)).console.lines.toList
        <+: (machine.useAll uses).console.lines.toList
      ∧ (machine.useAll uses).console.lines.toList = ["0", "Runtime Error: Division by zero"]
      ∧ stores.order = ["late"] ∧ stores.order = (machine.useAll uses).labels.names
      ∧ stores.order.Nodup := by
  intro uses stores
  have hnew : Machine.new { registers := 2 } astray {}
      = .ok (initial { registers := 2 } astray {}) :=
    new_eq_ok (by decide) (by decide) astray {}
  obtain ⟨hinstructions, ⟨hsize, -⟩, -, hprinted, ⟨horder, -⟩, hnodup, -⟩ :=
    kept_by_every_use hnew uses
  exact ⟨_, hnew, hinstructions, hsize, by decide +kernel, hprinted (uses.take 2) (uses.drop 2) rfl,
    by decide +kernel, by decide +kernel, horder, hnodup⟩

end Machine

end RegisterMachine
