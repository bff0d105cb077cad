import RegisterMachine.Proofs.BrokenInput
import RegisterMachine.Proofs.Effects
import RegisterMachine.Proofs.Stepping

/-!
# The values on a console are the values that were printed

A console is a list of lines, and nothing in it says which of them are values. They
are told by their look: a line that reads as a signed word is one. That works both
ways. A value is written as a numeral that reads as itself, up to both ends of the
range. A diagnostic starts with a letter, whatever text of the source it goes on
to quote, so it never reads as a number (`signed?_cons_eq_none`).

So an assembly adds no value to its console, however its source is spelled and
however it ends. A step of a machine adds the value that it prints, if it prints
one, and a run adds what its steps have printed, one after the other. What a step
prints is told here from the instruction and the registers that it finds
(`Operation.printed?`), not from what it does.
-/

namespace RegisterMachine

namespace Numeral

/-- A number starts with a digit or a sign. -/
theorem signed?_cons_eq_none {c : Char} (hdigit : c.isDigit = false) (hminus : c ≠ '-')
    (hplus : c ≠ '+') (text : List Char) : signed? (c :: text) = none := by
  have hnumber : integer? (c :: text) = none := by
    rw [integer?.eq_3 _ (by simp [hminus]) (by simp [hplus]), natural?, if_neg (by simp [hdigit])]
    rfl
  rw [signed?, hnumber]
  rfl

end Numeral

namespace Console

/-- Something that a console can be told. -/
inductive Report
  | value (word : Int64)
  | rejection (message reference : String)
  | fault (error : Error)
  deriving DecidableEq, Repr

def Report.value? : Report → Option Int64
  | value word => some word
  | _ => none

def tell (console : Console) : Report → Console
  | .value word => console.addValue word
  | .rejection message reference => console.addRejection message reference
  | .fault error => console.addFault error

def tellAll (console : Console) (reports : List Report) : Console :=
  reports.foldl tell console

theorem values_addRejection (console : Console) (message reference : String) :
    (console.addRejection message reference).values = console.values := by
  have hletter : (rejectionLead ++ message ++ " on line " ++ reference).toList
      = 'P' :: ("arse Error: ".toList ++ message.toList ++ " on line ".toList
        ++ reference.toList) := by
    simp only [String.toList_append]
    rfl
  rw [addRejection, values_addLine, hletter,
    Numeral.signed?_cons_eq_none (by decide) (by decide) (by decide)]
  exact List.append_nil _

theorem values_addFault (console : Console) (error : Error) :
    (console.addFault error).values = console.values := by
  have hletter : (faultLead ++ error.message).toList
      = 'R' :: ("untime Error: ".toList ++ error.message.toList) := by
    rw [String.toList_append]
    rfl
  rw [addFault, values_addLine, hletter,
    Numeral.signed?_cons_eq_none (by decide) (by decide) (by decide)]
  exact List.append_nil _

theorem values_tell (console : Console) (report : Report) :
    (console.tell report).values = console.values ++ report.value?.toList := by
  cases report with
  | value word => exact console.values_addValue word
  | rejection message reference =>
      exact (console.values_addRejection message reference).trans (List.append_nil _).symm
  | fault error => exact (console.values_addFault error).trans (List.append_nil _).symm

theorem values_tellAll (reports : List Report) :
    ∀ console : Console,
      (console.tellAll reports).values = console.values ++ reports.filterMap Report.value? := by
  induction reports with
  | nil => exact fun console => (List.append_nil _).symm
  | cons report reports ih =>
      intro console
      rw [tellAll, List.foldl_cons, ← tellAll, ih, values_tell, List.append_assoc]
      cases hvalue : report.value? <;> simp [hvalue]

end Console

/-! ## Assembly -/

theorem Workspace.values_accept (workspace : Workspace) (tally : Tally) (number : Nat)
    (reading : Reading) :
    (workspace.accept tally number reading).1.console.values = workspace.console.values := by
  cases reading with
  | blank => rfl
  | labelOnly label => rfl
  | instruction made =>
      rw [accept]
      cases workspace.program.push made with
      | ok program => rfl
      | error error => exact workspace.console.values_addRejection _ _
  | rejected error reference => exact workspace.console.values_addRejection _ _

namespace Vocabulary

variable (vocabulary : Vocabulary)

theorem values_assembleLines (lines : List String) :
    ∀ (number : Nat) (workspace : Workspace) (tally : Tally),
      (vocabulary.assembleLines number lines workspace tally).1.console.values
        = workspace.console.values := by
  induction lines with
  | nil => exact fun number workspace tally => rfl
  | cons line lines ih =>
      intro number workspace tally
      rw [assembleLines]
      simp only [ih, Workspace.values_accept]

theorem values_assemble (source : Source) (workspace : Workspace) :
    (vocabulary.assemble source workspace).1.console.values = workspace.console.values := by
  rw [assemble_eq]
  exact vocabulary.values_assembleLines source.lines 1 { workspace with program := .empty } {}

end Vocabulary

/-! ## Steps -/

/-- The value that an operation prints on given registers: that of the register it names, if it is
one that prints and there is such a register. -/
def Operation.printed? (registers : RegisterFile) : Operation → Option Int64
  | .print register => registers.values[register.toNat]?
  | _ => none

def Effect.printed? : Effect → Option Int64
  | print value => some value
  | _ => none

namespace Operation

variable {operation : Operation} {registers : RegisterFile} {labels : LabelTable}

theorem printed?_of_effect {effect : Effect}
    (h : operation.effect registers labels = .ok effect) :
    operation.printed? registers = effect.printed? := by
  cases effect_eq_ok_iff.1 h with
  | print hvalue => exact hvalue
  | load | arith | divZero | pass | jump => rfl

theorem printed?_of_fault {error : Error}
    (h : operation.effect registers labels = .error error) :
    operation.printed? registers = none := by
  cases operation with
  | print register =>
      cases hvalue : registers.values[register.toNat]? with
      | none => exact hvalue
      | some value =>
          have hyields : (print register).Yields registers labels (.print value) := .print hvalue
          cases hyields.effect_eq.symm.trans h
  | load | arith | branch => rfl

end Operation

namespace Machine

/-- The value that the next instruction prints, if it prints one. -/
def printed? (machine : Machine) : Option Int64 :=
  machine.instructions[machine.pc]?.bind fun instruction =>
    instruction.operation.printed? machine.registers

/-- What is printed in so many steps, in their order. -/
def printed (machine : Machine) (count : Nat) : List Int64 :=
  (List.range count).filterMap fun k => (machine.stepped k).printed?

theorem values_apply (machine : Machine) (effect : Effect) :
    (machine.apply effect).console.values = machine.console.values ++ effect.printed?.toList := by
  cases effect with
  | print value => exact machine.console.values_addValue value
  | report error =>
      exact (machine.console.values_addFault error).trans (List.append_nil _).symm
  | store register value => exact (List.append_nil _).symm
  | jump index => exact (List.append_nil _).symm
  | pass => exact (List.append_nil _).symm

/-- Only a step that goes on prints. -/
theorem printed?_of_ended {machine : Machine} (h : machine.step.2 ≠ .continued) :
    machine.printed? = none := by
  obtain ⟨hpc, -⟩ | ⟨instruction, effect, -, -, hstep⟩ | ⟨instruction, error, hfetch, hfault, -⟩ :=
    machine.step_cases
  · rw [printed?, Array.getElem?_eq_none hpc]
    rfl
  · exact absurd (congrArg Prod.snd hstep) h
  · rw [printed?, hfetch]
    exact Operation.printed?_of_fault hfault

theorem values_step (machine : Machine) :
    machine.step.1.console.values = machine.console.values ++ machine.printed?.toList := by
  obtain ⟨-, hstep⟩ | ⟨instruction, effect, hfetch, heffect, hstep⟩ |
    ⟨instruction, error, -, -, hstep⟩ := machine.step_cases
  · have hended : machine.step.2 ≠ .continued := by simp [hstep]
    rw [printed?_of_ended hended, hstep]
    exact (List.append_nil _).symm
  · rw [hstep, values_apply, fetched_console, printed?, hfetch, Option.bind_some,
      Operation.printed?_of_effect heffect]
  · have hended : machine.step.2 ≠ .continued := by simp [hstep]
    rw [printed?_of_ended hended, hstep, fetched_console]
    exact (List.append_nil _).symm

theorem values_stepped (machine : Machine) (count : Nat) :
    (machine.stepped count).console.values = machine.console.values ++ machine.printed count := by
  induction count with
  | zero => exact (List.append_nil _).symm
  | succ count ih =>
      rw [stepped_succ_eq_step, values_step, ih, printed, printed, List.range_succ,
        List.filterMap_append, List.append_assoc]
      cases hlast : (machine.stepped count).printed? <;> simp [hlast]

/-- The step with which a run ends prints nothing. -/
theorem values_run {machine after : Machine} {steps count : Nat} {outcome : Outcome}
    (hrun : machine.run steps = (after, count, outcome)) :
    after.console.values = machine.console.values ++ machine.printed count := by
  rw [run] at hrun
  obtain ⟨htaken, -⟩ | ⟨taken, last, ending, -, hended, hlast, -, htaken⟩ :=
    runFrom_cases steps 0 machine
  · rw [htaken, Nat.zero_add] at hrun
    cases hrun
    exact machine.values_stepped steps
  · rw [htaken, Nat.zero_add] at hrun
    cases hrun
    -- The step that ends the run is not counted, but the console is the one that it leaves.
    have hvalues := (machine.stepped count).values_step
    have hstopped : (machine.stepped count).step.2 ≠ .continued := by rwa [hlast]
    rw [printed?_of_ended hstopped, hlast, values_stepped] at hvalues
    rw [hvalues]
    exact List.append_nil _

end Machine

/-- A console that was told of values, rejected lines and faults shows the values, in their order
and nothing else. A console that an assembly and then a run write to shows, behind the values that
it showed before, those that the instructions executed in the run have printed, in the order of
their execution; whatever the source was, and however the assembly and the run ended. -/
theorem values_are_printed :
    (∀ reports : List Console.Report,
        (({} : Console).tellAll reports).values = reports.filterMap Console.Report.value?)
      ∧ ∀ (vocabulary : Vocabulary) (source : Source) (workspace : Workspace),
        let assembled := (vocabulary.assemble source workspace).1
        ∀ config machine, Machine.new config assembled.program assembled.console = .ok machine →
          ∀ steps after count outcome, machine.run steps = (after, count, outcome) →
            after.console.values = workspace.console.values ++ machine.printed count := by
  refine ⟨fun reports => Console.values_tellAll reports {}, ?_⟩
  intro vocabulary source workspace assembled config machine hnew steps after count outcome hrun
  obtain ⟨-, rfl⟩ := Machine.eq_initial_of_new hnew
  rw [Machine.values_run hrun, ← vocabulary.values_assemble source workspace]
  rfl

/-- A source in which lines without meaning look like numbers, and which divides by zero. -/
def numberlike : String :=
  "lin 0 -9223372036854775808\n7 7 7\nout 0\n+5 out x\ndiv 1 0 1\nout 1\nout 9\n"

theorem values_are_printed_numberlike :
    let assembled := (Vocabulary.standard.assemble (.ofText numberlike) {}).1
    ∃ machine, Machine.new { registers := 2 } assembled.program assembled.console = .ok machine
      ∧ (machine.run 9).2 = (4, .failed (.registerOutOfBounds 9 2))
      ∧ (machine.run 9).1.console.lines
        = #["Parse Error: Unknown instruction 7 on line 7",
            "Parse Error: Expected register index, found x on line +5", "-9223372036854775808",
            "Runtime Error: Division by zero", "0"]
      ∧ (machine.run 9).1.console.values = machine.printed 4
      ∧ machine.printed 4 = [-9223372036854775808, 0] := by
  intro assembled
  obtain ⟨-, hshown⟩ := values_are_printed
  have hnew : Machine.new { registers := 2 } assembled.program assembled.console
      = .ok (Machine.initial { registers := 2 } assembled.program assembled.console) :=
    Machine.new_eq_ok (by decide) (by decide) assembled.program assembled.console
  generalize hmachine : Machine.initial { registers := 2 } assembled.program assembled.console
    = machine at hnew
  have hrun : (machine.run 9).2 = (4, .failed (.registerOutOfBounds 9 2))
      ∧ (machine.run 9).1.console.lines
        = #["Parse Error: Unknown instruction 7 on line 7",
            "Parse Error: Expected register index, found x on line +5", "-9223372036854775808",
            "Runtime Error: Division by zero", "0"]
      ∧ machine.printed 4 = [-9223372036854775808, 0] := by
    rw [← hmachine]
    decide +kernel
  obtain ⟨hend, hlines, hprinted⟩ := hrun
  have hvalues := hshown .standard (.ofText numberlike) {} _ machine hnew 9 (machine.run 9).1 4 _
    (Prod.ext rfl hend)
  exact ⟨machine, hnew, hend, hlines, hvalues, hprinted⟩

end RegisterMachine
