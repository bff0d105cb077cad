import RegisterMachine.CommandLine.Invocation
import RegisterMachine.Proofs.BrokenInput
import RegisterMachine.Proofs.Output

/-!
# An invocation is assembly, listing and run, in this order

With options that are accepted and a file that can be opened, an invocation does
what the library does: it assembles the file, lists the program if it is to, and
runs it on a machine with as many registers as were asked for. All of them write
to the standard output, one after the other. An assembly that is given up ends
the invocation with nothing but its diagnostics written, and else the exit code
tells a fault of the run from its regular end. Rejected lines do neither.

A register count that was accepted is positive, and a machine is built for it if
there can be so many registers. If there cannot, the invocation breaks off where
the machine would have been built. Whether the machine logs its instructions is
left out of the comparison, which `Machine.run_of_silent_eq` allows.

The program does not wait for the end before it writes. It writes after every
step and forgets what is written, and `stream_eq_invoke` says that all the
pieces put together are what an invocation writes.
-/

namespace RegisterMachine

/-- The lines of a console, each with a line feed after it. -/
def Console.text (console : Console) : String :=
  String.join (console.lines.toList.map (· ++ "\n"))

namespace Config

theorem registers_pos_of_ofEnvironment {registers : Option String} {config : Config}
    (h : ofEnvironment registers = .ok config) : 0 < config.registers := by
  cases registers with
  | none =>
      obtain rfl := Except.ok.inj h
      decide
  | some text =>
      rw [ofEnvironment] at h
      cases hcount : registerCount text with
      | ok count =>
          rw [hcount] at h
          obtain rfl := Except.ok.inj h
          exact registerCount_pos hcount
      | error error =>
          rw [hcount] at h
          cases h

end Config

namespace CommandLine

theorem Options.registers_parse_pos (options : Options) (words : List String)
    (h : 0 < options.config.registers) : 0 < (options.parse words).1.config.registers := by
  -- Only a count that was accepted takes the place of the one in force, which is the last case.
  fun_induction Options.parse options words with
  | case1 | case2 | case6 | case7 => exact h
  | case3 options word words hflag ih
  | case4 options word words hflag ih
  | case5 options word words hflag ih => exact ih h
  | case8 options word hflag argument words count hcount ih =>
      exact ih (Config.registerCount_pos hcount)

/-! ## What is written -/

namespace Transcript

variable (transcript : Transcript) (stamped : Bool)

@[simp] theorem stdout_note (entries : Array Log.Entry) :
    (transcript.note stamped entries).stdout = transcript.stdout :=
  rfl

@[simp] theorem stdout_say (level : Log.Level) (message : String) :
    (transcript.say stamped level message).stdout = transcript.stdout :=
  rfl

@[simp] theorem stdout_print (text : String) :
    (transcript.print text).stdout = transcript.stdout ++ text :=
  rfl

@[simp] theorem stdout_printLines (console : Console) :
    (transcript.printLines console).stdout = transcript.stdout ++ console.text :=
  rfl

@[simp] theorem stdout_ofWorkspace (workspace : Workspace) :
    (ofWorkspace stamped workspace).stdout = workspace.console.text := by
  rw [ofWorkspace, stdout_note, stdout_printLines, String.empty_append]

end Transcript

/-! ## Before the run -/

variable {environment : Environment} {path : String} {words : List String} {content : List UInt8}
  {options : Options} {workspace : Workspace}

theorem prepare_of_accepted {config : Config} (hpath : path ≠ "-h" ∧ path ≠ "--help")
    (henvironment : Config.ofEnvironment environment.registers = .ok config)
    (hwords : ({ config } : Options).parse words = (options, none)) :
    prepare environment (path :: words) = load environment path options := by
  rw [prepare, if_neg (not_or.2 hpath)]
  simp only [henvironment, hwords]

theorem load_of_error (hfile : environment.file path = .regular content) {error : Error}
    (hassembled : Vocabulary.standard.assemble { bytes := content } {}
      = (workspace, .error error)) :
    ∃ result, load environment path options = .ended result
      ∧ result.code = 1 ∧ result.transcript.stdout = workspace.console.text := by
  have hload : load environment path options
      = refuse (.ofWorkspace options.timestamps workspace) options.timestamps
          ("Translation failed: " ++ error.message) := by
    rw [load, hfile]
    simp only [Vocabulary.assembleFile, InputFile.open?, InputFile.regular, hassembled]
    rfl
  rw [hload]
  exact ⟨_, rfl, rfl, Transcript.stdout_ofWorkspace options.timestamps workspace⟩

theorem stdout_announce (options : Options) (tally : Tally) (workspace : Workspace) :
    (announce options tally workspace).stdout
      = workspace.console.text ++ if options.dump then workspace.program.display else "" := by
  rw [announce]
  -- Rejected lines are logged once more, and that is all that comes of them.
  by_cases hrejected : tally.rejected = 0
  · cases hdump : options.dump <;> simp [hrejected]
  · cases hdump : options.dump <;> simp [hrejected]

theorem launch_of_new (tally : Tally) (workspace : Workspace) {machine : Machine}
    (hnew : Machine.new options.config workspace.program {} = .ok machine) :
    ∃ launched, launch options tally workspace = .ready launched ∧ launched.machine = machine
      ∧ launched.transcript.stdout
        = workspace.console.text ++ if options.dump then workspace.program.display else "" := by
  rw [launch, hnew]
  exact ⟨_, rfl, rfl, stdout_announce options tally workspace⟩

theorem launch_of_overflow (tally : Tally) (workspace : Workspace)
    (hlimit : RegisterFile.limit ≤ options.config.registers) :
    ∃ result, launch options tally workspace = .ended result ∧ result.code = brokenOff
      ∧ result.transcript.stdout
        = workspace.console.text ++ if options.dump then workspace.program.display else "" := by
  rw [launch, Machine.new_eq_overflow hlimit]
  exact ⟨_, rfl, rfl, stdout_announce options tally workspace⟩

theorem load_of_ok (hfile : environment.file path = .regular content) {tally : Tally}
    (hassembled : Vocabulary.standard.assemble { bytes := content } {} = (workspace, .ok tally)) :
    load environment path options
      = launch options tally (workspace.note .info (Vocabulary.assembled path tally)) := by
  rw [load, hfile]
  simp only [Vocabulary.assembleFile, InputFile.open?, InputFile.regular, hassembled]
  rfl

theorem load_of_new (hfile : environment.file path = .regular content) {tally : Tally}
    (hassembled : Vocabulary.standard.assemble { bytes := content } {} = (workspace, .ok tally))
    {machine : Machine} (hnew : Machine.new options.config workspace.program {} = .ok machine) :
    ∃ launched, load environment path options = .ready launched ∧ launched.machine = machine
      ∧ launched.transcript.stdout
        = workspace.console.text ++ if options.dump then workspace.program.display else "" := by
  rw [load_of_ok hfile hassembled]
  exact launch_of_new tally (workspace.note .info (Vocabulary.assembled path tally)) hnew

theorem load_of_overflow (hfile : environment.file path = .regular content) {tally : Tally}
    (hassembled : Vocabulary.standard.assemble { bytes := content } {} = (workspace, .ok tally))
    (hlimit : RegisterFile.limit ≤ options.config.registers) :
    ∃ result, load environment path options = .ended result ∧ result.code = brokenOff
      ∧ result.transcript.stdout
        = workspace.console.text ++ if options.dump then workspace.program.display else "" := by
  rw [load_of_ok hfile hassembled]
  exact launch_of_overflow tally (workspace.note .info (Vocabulary.assembled path tally)) hlimit

/-! ## The run -/

/-- What a run of the machine comes to for its invocation. -/
def Launch.ending (launch : Launch) : Machine × Nat × Outcome → Option Result
  | (_, _, .continued) => none
  | (machine, executed, .halted) => some (conclude launch machine executed none)
  | (machine, executed, .failed error) => some (conclude launch machine executed (some error))

theorem invoke_of_ended {result : Result} (h : prepare environment words = .ended result)
    (steps : Nat) : invoke environment steps words = some result := by
  rw [invoke, h]

section

variable {launched : Launch} {machine after : Machine} {steps count : Nat} {outcome : Outcome}

theorem invoke_of_ready (h : prepare environment words = .ready launched) (steps : Nat) :
    invoke environment steps words = launched.ending (launched.machine.run steps) := by
  rw [invoke, h]
  rfl

theorem invoke_of_continued (h : prepare environment words = .ready launched)
    (hrun : launched.machine.run steps = (after, count, .continued)) :
    invoke environment steps words = none := by
  rw [invoke_of_ready h, hrun]
  rfl

theorem invoke_of_run (h : prepare environment words = .ready launched)
    (hrun : launched.machine.run steps = (after, count, outcome)) (hended : outcome ≠ .continued) :
    ∃ result, invoke environment steps words = some result
      ∧ result.code = (if outcome = .halted then 0 else 1)
      ∧ result.transcript.stdout = launched.transcript.stdout ++ after.console.text := by
  rw [invoke_of_ready h, hrun]
  cases outcome with
  | continued => exact absurd rfl hended
  | halted => exact ⟨_, rfl, rfl, rfl⟩
  | failed error => exact ⟨_, rfl, rfl, rfl⟩

theorem run_of_silent (hsilent : machine.silent = launched.machine.silent)
    (hrun : machine.run steps = (after, count, outcome)) :
    ∃ other, launched.machine.run steps = (other, count, outcome)
      ∧ other.console = after.console := by
  obtain ⟨hafter, hend⟩ := Machine.run_of_silent_eq hsilent steps
  rw [hrun] at hafter hend
  have hconsole : after.silent.console = (launched.machine.run steps).1.silent.console := by
    rw [hafter]
  exact ⟨_, Prod.ext rfl hend.symm, hconsole.symm⟩

end

/-- With accepted options, an invocation whose source is given up ends with the diagnostics of the
assembly written. Any other, for which the registers that were asked for can be had, ends when the
run of the assembled program on them does, be it logged or not. By then the diagnostics, the listing
if one was asked for, and the lines of the run are written, and the exit code tells whether the run
halted. -/
theorem invoke_runs_assembled (environment : Environment) {path : String} {words : List String}
    {content : List UInt8} {config : Config} {options : Options}
    (hpath : path ≠ "-h" ∧ path ≠ "--help")
    (hfile : environment.file path = .regular content)
    (henvironment : Config.ofEnvironment environment.registers = .ok config)
    (hwords : ({ config } : Options).parse words = (options, none)) :
    let assembled := Vocabulary.standard.assemble { bytes := content } {}
    let program := assembled.1.program
    let diagnostics := assembled.1.console.text
    (∀ error, assembled.2 = .error error →
        ∀ steps, ∃ result, invoke environment steps (path :: words) = some result
          ∧ result.code = 1 ∧ result.transcript.stdout = diagnostics)
      ∧ ∀ tally, assembled.2 = .ok tally → ∀ trace,
          let built := Machine.new { registers := options.config.registers, trace } program {}
          (options.config.registers < RegisterFile.limit → ∃ machine, built = .ok machine)
            ∧ ∀ machine, built = .ok machine →
              ∀ steps after count outcome, machine.run steps = (after, count, outcome) →
                (outcome = .continued → invoke environment steps (path :: words) = none)
                  ∧ (outcome ≠ .continued →
                    ∃ result, invoke environment steps (path :: words) = some result
                      ∧ result.code = (if outcome = .halted then 0 else 1)
                      ∧ result.transcript.stdout
                        = diagnostics ++ (if options.dump then program.display else "")
                          ++ after.console.text) := by
  intro assembled program diagnostics
  have hprepare := prepare_of_accepted hpath henvironment hwords
  have hregisters : 0 < options.config.registers := by
    have hpos := Options.registers_parse_pos { config } words
      (Config.registers_pos_of_ofEnvironment henvironment)
    rwa [hwords] at hpos
  refine ⟨fun error herror steps => ?_, fun tally htally trace => ?_⟩
  · obtain ⟨result, hload, hcode, hstdout⟩ := load_of_error hfile (Prod.ext rfl herror)
    exact ⟨result, invoke_of_ended (hprepare.trans hload) steps, hcode, hstdout⟩
  · have htracedRegisters :
        0 < ({ registers := options.config.registers, trace } : Config).registers := hregisters
    refine ⟨Machine.exists_new htracedRegisters program {}, fun machine htraced => ?_⟩
    intro steps after count outcome hrun
    have hlimit := Machine.lt_limit_of_new htraced
    have hnew := Machine.new_eq_ok hregisters hlimit program {}
    obtain ⟨launched, hload, hmachine, hstdout⟩ := load_of_new hfile (Prod.ext rfl htally) hnew
    have hready := hprepare.trans hload
    have hsilent : machine.silent = launched.machine.silent :=
      hmachine ▸ Machine.silent_eq_of_new htraced hnew rfl
    obtain ⟨other, hother, hconsole⟩ := run_of_silent hsilent hrun
    rw [← hconsole, ← hstdout]
    refine ⟨fun hcontinued => ?_, invoke_of_run hready hother⟩
    exact invoke_of_continued hready (hcontinued ▸ hother)

/-- A source with a line that is rejected, a line that prints, and a branch that leads nowhere. -/
def straying : String :=
  "lin 0 7\nlin 1 x\nout 0\nbnz 0 nowhere"

theorem invoke_runs_assembled_straying :
    let environment : Environment :=
      { program := "machine"
        registers := some "3"
        file := fun _ => .regular straying.toUTF8.data.toList }
    ∃ result, invoke environment 9 ["a", "--dump", "-r", "2"] = some result
      ∧ result.code = 1
      ∧ result.transcript.stdout
        = "Parse Error: Expected integer, found x on line 2\nlabels: ()\n"
          ++ "   0  lin 0 7\n   1  out 0\n   2  bnz 0 nowhere\n7\n" := by
  intro environment
  obtain ⟨-, hruns⟩ := invoke_runs_assembled environment
    (show "a" ≠ "-h" ∧ "a" ≠ "--help" by decide) rfl
    (show Config.ofEnvironment (some "3") = .ok { registers := 3 } by rfl)
    (show ({ config := { registers := 3 } } : Options).parse ["--dump", "-r", "2"]
      = ({ config := { registers := 2 }, dump := true }, none) by decide)
  obtain ⟨tally, htally⟩ := Vocabulary.exists_tally_iff.2
    (show Source.fault? { bytes := straying.toUTF8.data.toList } = none by decide +kernel)
  obtain ⟨hbuilt, hrun⟩ := hruns tally htally false
  obtain ⟨machine, hnew⟩ := hbuilt (by decide)
  obtain rfl := Except.ok.inj hnew
  obtain ⟨result, hinvoke, hcode, hstdout⟩ := (hrun _ hnew 9 _ _ _ rfl).2 (by decide +kernel)
  exact ⟨result, hinvoke, hcode.trans (by decide +kernel), hstdout.trans (by decide +kernel)⟩

/-! ## Writing after every step -/

/-- What is written when another transcript is written after the first. -/
def Transcript.followedBy (before after : Transcript) : Transcript where
  stdout := before.stdout ++ after.stdout
  log := before.log ++ after.log

def Result.precededBy (result : Result) (before : Transcript) : Result :=
  { result with transcript := before.followedBy result.transcript }

/-- The end of a launch that writes after every step, with all that it has written by then, if it
comes within the given number of steps. -/
def Launch.stream (executed : Nat) : Nat → Launch → Option Result
  | 0, _ => none
  | steps + 1, launch =>
    match launch.advance executed with
    | .running written rest => (Launch.stream (executed + 1) steps rest).map (·.precededBy written)
    | .ended result => some result

theorem written_preceded (launch : Launch) (machine after : Machine) :
    launch.written (after.preceded machine.console machine.log)
      = (launch.written machine).followedBy ((launch.flushed machine).written after) := by
  simp only [Launch.written, Launch.flushed, Transcript.followedBy, Transcript.note,
    Transcript.printLines, Transcript.print, Machine.preceded, Array.toList_append, List.map_append,
    String.join_append, String.append_assoc, String.empty_append, Array.map_append,
    Array.append_assoc, Array.empty_append]

theorem Transcript.followedBy_note (before after : Transcript) (stamped : Bool)
    (entries : Array Log.Entry) :
    before.followedBy (after.note stamped entries)
      = (before.followedBy after).note stamped entries := by
  rw [followedBy, followedBy, note, note, Array.append_assoc]

theorem ending_flushed (launch : Launch) (machine after : Machine) (executed : Nat)
    (outcome : Outcome) :
    ((launch.flushed machine).ending (after, executed, outcome)).map
        (·.precededBy (launch.written machine))
      = launch.ending (after.preceded machine.console machine.log, executed, outcome) := by
  cases outcome with
  | continued => rfl
  | halted =>
      simp only [Launch.ending, conclude, Option.map_some, Result.precededBy, written_preceded,
        Transcript.followedBy_note]
      rfl
  | failed error =>
      simp only [Launch.ending, conclude, Option.map_some, Result.precededBy, written_preceded,
        Transcript.followedBy_note]
      rfl

/-- The pieces that are written in the course of a run are what the whole run has written. -/
theorem stream_eq_ending (steps : Nat) :
    ∀ (executed : Nat) (launch : Launch),
      launch.stream executed steps
        = launch.ending (Machine.runFrom executed steps launch.machine) := by
  induction steps with
  | zero => exact fun executed launch => rfl
  | succ steps ih =>
      intro executed launch
      rw [Launch.stream, Launch.advance, Machine.runFrom]
      cases hstep : launch.machine.step with
      | mk machine outcome =>
          cases outcome with
          | continued =>
              -- What goes on is the machine with its output taken away, and the output is given
              -- back to it at the end of the run.
              have hback : (launch.flushed machine).machine.preceded machine.console machine.log
                  = machine := by
                simp [Launch.flushed, Machine.preceded]
              have hrun := (Machine.transparent_preceded machine.console machine.log).runFrom
                (executed + 1) steps (launch.flushed machine).machine
              rw [hback] at hrun
              simp only []
              rw [ih, hrun]
              exact ending_flushed launch machine _ _ _
          | halted => rfl
          | failed error => rfl

theorem stream_eq_invoke {launched : Launch} (h : prepare environment words = .ready launched)
    (steps : Nat) : launched.stream 0 steps = invoke environment steps words := by
  rw [stream_eq_ending, invoke_of_ready h]
  rfl

end CommandLine

end RegisterMachine
