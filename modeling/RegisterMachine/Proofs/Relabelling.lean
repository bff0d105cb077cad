import RegisterMachine.Proofs.Effects
import RegisterMachine.Proofs.Indifference
import RegisterMachine.Proofs.ProgramIndex
import Mathlib.Data.List.Nodup
import Mathlib.Data.Prod.Basic
import Mathlib.Logic.Equiv.Basic

/-!
# Labels are names and nothing more

Labels may be exchanged for others throughout a program, as long as different
labels stay different and no label is no label still. No text is special: not
that of a mnemonic, nor one that differs from another in its case alone.
Everything that is done with labels then gives the same answer in the other
names, and so does everything that is made of it: a push, which may be refused
and may extend the table (`Program.push_relabelled`), the look at a target
(`LabelTable.find?_relabelled`), what an operation comes to, a step, and a run.

Of all this a machine shows a label only when a branch leads nowhere, in the
fault that ends the run. It shows labels in its log as well, but as it does not
matter whether it keeps one, what is relabelled here is a machine without.
-/

namespace RegisterMachine

/-- Other names for labels. -/
structure Relabelling where
  name : String → String
  injective : Function.Injective name
  name_empty : name "" = ""

instance : CoeFun Relabelling fun _ => String → String :=
  ⟨Relabelling.name⟩

theorem Relabelling.eq_empty_iff (relabel : Relabelling) {label : String} :
    relabel label = "" ↔ label = "" := by
  conv_lhs => rw [← relabel.name_empty]
  exact relabel.injective.eq_iff

def Error.relabelled (relabel : Relabelling) : Error → Error
  | duplicateLabel label => duplicateLabel (relabel label)
  | undefinedLabel label => undefinedLabel (relabel label)
  | error => error

variable {relabel : Relabelling}

/-! ## The label table -/

namespace LabelTable

variable {table : LabelTable} {label : String}

theorem map_fst_relabelled (bindings : List (String × Nat)) :
    (bindings.map (Prod.map relabel id)).map Prod.fst = (bindings.map Prod.fst).map relabel := by
  rw [List.map_map, List.map_map]
  rfl

def relabelled (relabel : Relabelling) (table : LabelTable) : LabelTable where
  bindings := table.bindings.map (Prod.map relabel id)
  nodup := by
    rw [map_fst_relabelled]
    exact table.nodup.map relabel.injective

theorem mem_names_relabelled :
    relabel label ∈ (table.relabelled relabel).names ↔ label ∈ table.names := by
  rw [names, relabelled, map_fst_relabelled, List.mem_map_of_injective relabel.injective, names]

theorem find?_relabelled (label : String) :
    (table.relabelled relabel).find? (relabel label) = table.find? label := by
  have hinjective : Function.Injective (Prod.map relabel (id : Nat → Nat)) :=
    relabel.injective.prodMap Function.injective_id
  refine Option.ext fun index => ?_
  have hbinding : Prod.map relabel id (label, index) ∈ table.bindings.map (Prod.map relabel id)
      ↔ (label, index) ∈ table.bindings := List.mem_map_of_injective hinjective
  rw [find?_eq_some_iff, find?_eq_some_iff]
  exact hbinding

theorem relabelled_append (index : Nat) (hfresh : label ∉ table.names) :
    (table.append label index hfresh).relabelled relabel
      = (table.relabelled relabel).append (relabel label) index
          (fun hmem => hfresh (mem_names_relabelled.1 hmem)) := by
  simp [relabelled, append]

theorem define_relabelled (label : String) (index : Nat) :
    (table.relabelled relabel).define (relabel label) index
      = ((table.define label index).map (relabelled relabel)).mapError
          (Error.relabelled relabel) := by
  by_cases hbound : label ∈ table.names
  · rw [define, dif_pos (mem_names_relabelled.2 hbound), define, dif_pos hbound]
    rfl
  · rw [define, dif_neg (mt mem_names_relabelled.1 hbound), define, dif_neg hbound,
      ← relabelled_append]
    rfl

end LabelTable

/-! ## Programs -/

def Operation.relabelled (relabel : Relabelling) : Operation → Operation
  | branch register target => branch register (relabel target)
  | operation => operation

def Instruction.relabelled (relabel : Relabelling) (instruction : Instruction) : Instruction where
  label := relabel instruction.label
  operation := instruction.operation.relabelled relabel

namespace Program

def relabelled (relabel : Relabelling) (program : Program) : Program where
  labels := program.labels.relabelled relabel
  instructions := program.instructions.map (Instruction.relabelled relabel)

theorem push_relabelled (relabel : Relabelling) (program : Program) (instruction : Instruction) :
    (program.relabelled relabel).push (instruction.relabelled relabel)
      = ((program.push instruction).map (relabelled relabel)).mapError
          (Error.relabelled relabel) := by
  have hsize : (program.relabelled relabel).size = program.size := Array.size_map
  have hlabel : (instruction.relabelled relabel).label = relabel instruction.label := rfl
  have hinstructions :
      (program.relabelled relabel).instructions.push (instruction.relabelled relabel)
        = (program.instructions.push instruction).map (Instruction.relabelled relabel) :=
    Array.map_push.symm
  rw [push, push, hlabel, hinstructions, hsize]
  by_cases hempty : instruction.label = ""
  · rw [if_pos (relabel.eq_empty_iff.2 hempty), if_pos hempty]
    rfl
  · rw [if_neg (mt relabel.eq_empty_iff.1 hempty), if_neg hempty, relabelled,
      LabelTable.define_relabelled]
    cases program.labels.define instruction.label program.size with
    | ok labels => rfl
    | error error => rfl

theorem relabelled_empty : empty.relabelled relabel = empty := by
  simp [relabelled, LabelTable.relabelled, empty]

/-- Pushes instructions one after the other, leaving out those that are refused. -/
def pushEach (program : Program) : List Instruction → Program × List (Option Error)
  | [] => (program, [])
  | instruction :: rest =>
    match program.push instruction with
    | .ok next => ((next.pushEach rest).1, none :: (next.pushEach rest).2)
    | .error error => ((program.pushEach rest).1, some error :: (program.pushEach rest).2)

theorem pushEach_relabelled (relabel : Relabelling) (instructions : List Instruction) :
    ∀ program : Program,
      (program.relabelled relabel).pushEach (instructions.map (Instruction.relabelled relabel))
        = ((program.pushEach instructions).1.relabelled relabel,
            (program.pushEach instructions).2.map (Option.map (Error.relabelled relabel))) := by
  induction instructions with
  | nil => exact fun program => rfl
  | cons instruction instructions ih =>
      intro program
      have hrelabelled := push_relabelled relabel program instruction
      cases hpush : program.push instruction with
      | ok next =>
          rw [hpush] at hrelabelled
          rw [List.map_cons, pushEach, hrelabelled, pushEach, hpush]
          simp only [Except.map, Except.mapError, ih next, List.map_cons, Option.map]
      | error error =>
          rw [hpush] at hrelabelled
          rw [List.map_cons, pushEach, hrelabelled, pushEach, hpush]
          simp only [Except.map, Except.mapError, ih program, List.map_cons, Option.map]

end Program

/-! ## What operations come to -/

namespace Operation

variable {registers : RegisterFile} {labels : LabelTable} {operation : Operation} {effect : Effect}
  {error : Error}

theorem accesses_relabelled :
    (operation.relabelled relabel).accesses registers = operation.accesses registers := by
  cases operation <;> rfl

theorem Yields.relabelled (h : operation.Yields registers labels effect) :
    (operation.relabelled relabel).Yields registers (labels.relabelled relabel) effect := by
  cases h with
  | load h => exact .load h
  | arith ha hb hvalue hresult => exact .arith ha hb hvalue hresult
  | divZero ha hb => exact .divZero ha hb
  | print h => exact .print h
  | pass h => exact .pass h
  | jump h htaken hfind => exact .jump h htaken ((LabelTable.find?_relabelled _).trans hfind)

theorem FailsWith.relabelled (h : operation.FailsWith registers labels error) :
    (operation.relabelled relabel).FailsWith registers (labels.relabelled relabel)
      (error.relabelled relabel) := by
  cases h with
  | register hmissing => exact .register (by rwa [accesses_relabelled])
  | target hbranch hvalue htaken hunbound =>
      subst hbranch
      exact .target rfl hvalue htaken (mt LabelTable.mem_names_relabelled.1 hunbound)

theorem effect_relabelled :
    (operation.relabelled relabel).effect registers (labels.relabelled relabel)
      = (operation.effect registers labels).mapError (Error.relabelled relabel) := by
  cases heffect : operation.effect registers labels with
  | ok effect => exact (effect_eq_ok_iff.1 heffect).relabelled.effect_eq
  | error error => exact (effect_eq_error_iff.1 heffect).relabelled.effect_eq

end Operation

/-! ## Machines -/

namespace Machine

variable {machine : Machine}

/-- The machine with its labels exchanged, which logs nothing. -/
def relabelled (relabel : Relabelling) (machine : Machine) : Machine :=
  { machine with
    labels := machine.labels.relabelled relabel
    instructions := machine.instructions.map (Instruction.relabelled relabel)
    trace := false
    log := #[] }

theorem commutes_relabelled (machine : Machine) :
    Commutes (relabelled relabel) (Instruction.relabelled relabel) (Error.relabelled relabel)
      machine where
  pc := rfl
  instructions := rfl
  fetched instruction := by
    obtain ⟨log, h⟩ := machine.fetched_eq instruction
    rw [h]
    rfl
  effect instruction _ := Operation.effect_relabelled
  apply instruction effect _ _ := by cases effect <;> rfl

theorem stepped_relabelled (machine : Machine) (count : Nat) :
    (machine.relabelled relabel).stepped count = (machine.stepped count).relabelled relabel :=
  stepped_of_commutes fun k _ => commutes_relabelled (machine.stepped k)

theorem outcome_stepped_relabelled (machine : Machine) (count : Nat) :
    ((machine.relabelled relabel).stepped count).step.2
      = (machine.stepped count).step.2.map (Error.relabelled relabel) :=
  outcome_of_commutes fun k _ => commutes_relabelled (machine.stepped k)

/-- The machine is about to run the program, or in the middle of it. -/
structure Over (machine : Machine) (program : Program) : Prop where
  labels : machine.labels = program.labels
  instructions : machine.instructions = program.instructions

theorem alike_relabelled {other : Machine} {program : Program} (hmachine : machine.Over program)
    (hother : other.Over (program.relabelled relabel))
    (hregisters : other.registers = machine.registers) (hpc : other.pc = machine.pc) :
    (machine.relabelled relabel).Alike other where
  registers := hregisters
  labels := by rw [hother.labels, relabelled, hmachine.labels, Program.relabelled]
  pc := hpc
  operations := by rw [hother.instructions, relabelled, hmachine.instructions, Program.relabelled]

/-- Pushing instructions under other labels succeeds and fails where pushing them under their own
does, and makes the same program under the other labels. Machines over two such programs, with equal
registers and counters, take the same steps and print the same lines. -/
theorem relabelled_alike (relabel : Relabelling) :
    (∀ instructions : List Instruction,
        Program.empty.pushEach (instructions.map (Instruction.relabelled relabel))
          = ((Program.empty.pushEach instructions).1.relabelled relabel,
              (Program.empty.pushEach instructions).2.map (Option.map (Error.relabelled relabel))))
      ∧ ∀ (program : Program) (machine other : Machine),
        machine.Over program → other.Over (program.relabelled relabel) →
        other.registers = machine.registers → other.pc = machine.pc →
        ∀ count,
          (other.stepped count).step.2
              = (machine.stepped count).step.2.map (Error.relabelled relabel)
            ∧ (other.stepped count).pc = (machine.stepped count).pc
            ∧ (other.stepped count).registers = (machine.stepped count).registers
            ∧ ∃ printed : Array String,
              (machine.stepped count).console.lines = machine.console.lines ++ printed
                ∧ (other.stepped count).console.lines = other.console.lines ++ printed := by
  constructor
  · intro instructions
    rw [← Program.pushEach_relabelled, Program.relabelled_empty]
  · intro program machine other hmachine hother hregisters hpc count
    obtain ⟨houtcome, hafter, hprinted⟩ :=
      (alike_relabelled hmachine hother hregisters hpc).stepped count
    rw [stepped_relabelled] at hafter hprinted
    rw [outcome_stepped_relabelled] at houtcome
    exact ⟨houtcome, hafter.pc, hafter.registers, hprinted⟩

/-- The other name of the one is the name of a mnemonic, and the other way round. -/
def exchanging : Relabelling where
  name := Equiv.swap "a" "add"
  injective := (Equiv.swap "a" "add").injective
  name_empty := Equiv.swap_apply_of_ne_of_ne (by decide) (by decide)

/-- The second instruction is refused, and the branch leads nowhere. -/
def misled : List Instruction :=
  [⟨"a", .load 0 5⟩, ⟨"a", .print 0⟩, ⟨"", .branch 0 "add"⟩]

theorem relabelled_alike_exchanging :
    let program := (Program.empty.pushEach (misled.map (Instruction.relabelled exchanging))).1
    (Program.empty.pushEach (misled.map (Instruction.relabelled exchanging))).2
        = [none, some (.duplicateLabel "add"), none]
      ∧ program.labels.bindings = [("add", 0)]
      ∧ ((initial { registers := 1 } program {}).stepped 1).step.2
        = .failed (.undefinedLabel "a") := by
  obtain ⟨hpushed, hstepped⟩ := relabelled_alike exchanging
  have hmisled : Program.empty.pushEach misled
      = (⟨⟨[("a", 0)], by decide⟩, #[⟨"a", .load 0 5⟩, ⟨"", .branch 0 "add"⟩]⟩,
          [none, some (.duplicateLabel "a"), none]) := by decide +kernel
  have hfailed :
      ((initial { registers := 1 } (Program.empty.pushEach misled).1 {}).stepped 1).step.2
        = .failed (.undefinedLabel "add") := by decide +kernel
  obtain ⟨houtcome, -⟩ := hstepped (Program.empty.pushEach misled).1
    (initial { registers := 1 } (Program.empty.pushEach misled).1 {})
    (initial { registers := 1 } ((Program.empty.pushEach misled).1.relabelled exchanging) {})
    ⟨rfl, rfl⟩ ⟨rfl, rfl⟩ rfl rfl 1
  have hthere : exchanging "a" = "add" := Equiv.swap_apply_left _ _
  have hback : exchanging "add" = "a" := Equiv.swap_apply_right _ _
  rw [hpushed misled]
  rw [hfailed] at houtcome
  refine ⟨?_, ?_, ?_⟩
  · rw [hmisled]
    simp [Error.relabelled, hthere]
  · rw [hmisled]
    simp [Program.relabelled, LabelTable.relabelled, hthere]
  · rw [houtcome, Outcome.map, Error.relabelled, hback]

end Machine

end RegisterMachine
