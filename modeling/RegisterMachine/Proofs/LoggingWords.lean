import RegisterMachine.Proofs.OptionItems

/-!
# Logging changes no result

Two of the options are about the log alone, the one that traces instructions and the
one that leaves out the time. They may be given or left out, as often as one likes
and wherever an option may stand, and an invocation comes to the same end: with the
same exit code, after the same number of steps, and with the same text on the
standard output. This is so as well if the options are refused, if lines are
rejected, and if the run stops at a fault. Nor do the variables that decide about
colors have a part in it.

Where an option may stand is not plain from the words, because an option that looks
like one of these two may be the argument of another. `LoggingApart` goes through
two lists of words at once, as the reading of options does, and keeps an argument
and its option together.

The two invocations are then compared part by part. The options they read agree in
all that is not logging, so they are ready, or at their end, together (`Start.Agrees`);
and machines that differ in their logging alone run alike (`Machine.run_of_silent_eq`).
-/

namespace RegisterMachine.CommandLine

/-! ## Options -/

/-- The words that are about the log and nothing else. -/
def loggingWords : List String :=
  Flag.names .trace ++ Flag.names .noTimestamp

/-- Two lists of words that become the same when logging words are taken out of either of them where
they are options. The word after a register option is its argument, and stays. -/
inductive LoggingApart : List String → List String → Prop
  | nil : LoggingApart [] []
  | left {word : String} {words others : List String} (hword : word ∈ loggingWords)
      (h : LoggingApart words others) : LoggingApart (word :: words) others
  | right {word : String} {words others : List String} (hword : word ∈ loggingWords)
      (h : LoggingApart words others) : LoggingApart words (word :: others)
  | both {word : String} {words others : List String} (hword : word ∉ Flag.names .registers)
      (h : LoggingApart words others) : LoggingApart (word :: words) (word :: others)
  | argument {word argument : String} {words others : List String}
      (hword : word ∈ Flag.names .registers) (h : LoggingApart words others) :
      LoggingApart (word :: argument :: words) (word :: argument :: others)
  | missing {word : String} (hword : word ∈ Flag.names .registers) : LoggingApart [word] [word]

namespace Options

/-- The options are the same in all that is not logging. -/
structure Agrees (options other : Options) : Prop where
  registers : options.config.registers = other.config.registers
  dump : options.dump = other.dump

variable {options other : Options}

theorem Agrees.follow (h : options.Agrees other) (item : Item) :
    (options.follow item).Agrees (other.follow item) := by
  cases item with
  | registers count => exact ⟨rfl, h.dump⟩
  | trace => exact ⟨h.registers, h.dump⟩
  | dump => exact ⟨h.registers, rfl⟩
  | noTimestamp => exact ⟨h.registers, h.dump⟩

theorem exists_item_of_loggingWord {word : String} (h : word ∈ loggingWords) :
    ∃ item : Item, item.Spelling [word] ∧ ∀ options : Options,
      (options.follow item).config.registers = options.config.registers
        ∧ (options.follow item).dump = options.dump := by
  rcases List.mem_append.1 h with htrace | hnoTimestamp
  · exact ⟨.trace, .trace htrace, fun options => ⟨rfl, rfl⟩⟩
  · exact ⟨.noTimestamp, .noTimestamp hnoTimestamp, fun options => ⟨rfl, rfl⟩⟩

theorem exists_item_of_not_registers {word : String} {flag : Flag}
    (hflag : Flag.ofWord? word = some flag) (hword : word ∉ Flag.names .registers) :
    ∃ item : Item, item.Spelling [word] := by
  have hname := Flag.ofWord?_eq_some_iff.1 hflag
  cases flag with
  | registers => exact absurd hname hword
  | trace => exact ⟨_, .trace hname⟩
  | dump => exact ⟨_, .dump hname⟩
  | noTimestamp => exact ⟨_, .noTimestamp hname⟩

theorem parse_of_unexpected {word : String} (h : Flag.ofWord? word = none) (options : Options)
    (words : List String) : options.parse (word :: words) = (options, some (.unexpected word)) := by
  rw [parse.eq_def]
  simp only [h]

theorem parse_of_missingArgument {word : String} (h : word ∈ Flag.names .registers)
    (options : Options) : options.parse [word] = (options, some (.missingArgument word)) := by
  rw [parse.eq_def]
  simp only [Flag.ofWord?_eq_some_iff.2 h]

theorem parse_of_badArgument {word argument : String} {error : Error}
    (h : word ∈ Flag.names .registers) (hcount : Config.registerCount argument = .error error)
    (options : Options) (words : List String) :
    options.parse (word :: argument :: words) = (options, some (.badArgument error)) := by
  rw [parse.eq_def]
  simp only [Flag.ofWord?_eq_some_iff.2 h, hcount]

/-- Lists of words that differ in logging words are accepted or refused together, and leave options
that agree. -/
theorem parse_of_loggingApart {words others : List String} (h : LoggingApart words others) :
    ∀ {options other : Options}, options.Agrees other →
      (options.parse words).1.Agrees (other.parse others).1
        ∧ (options.parse words).2 = (other.parse others).2 := by
  induction h with
  | nil => exact fun hagrees => ⟨hagrees, rfl⟩
  | @left word words others hword _ ih =>
      intro options other hagrees
      -- Only one side goes on by a word here, and what it reads is nothing that `Agrees` looks at.
      obtain ⟨item, hitem, hsame⟩ := exists_item_of_loggingWord hword
      rw [← List.singleton_append, parse_of_spelling hitem]
      exact ih ⟨(hsame options).1.trans hagrees.registers, (hsame options).2.trans hagrees.dump⟩
  | @right word words others hword _ ih =>
      intro options other hagrees
      obtain ⟨item, hitem, hsame⟩ := exists_item_of_loggingWord hword
      rw [← List.singleton_append, parse_of_spelling hitem]
      exact ih ⟨hagrees.registers.trans (hsame other).1.symm,
        hagrees.dump.trans (hsame other).2.symm⟩
  | @both word words others hword _ ih =>
      intro options other hagrees
      cases hflag : Flag.ofWord? word with
      | none =>
          rw [parse_of_unexpected hflag, parse_of_unexpected hflag]
          exact ⟨hagrees, rfl⟩
      | some flag =>
          obtain ⟨item, hitem⟩ := exists_item_of_not_registers hflag hword
          have hfront : ∀ (options : Options) (rest : List String),
              options.parse (word :: rest) = (options.follow item).parse rest :=
            parse_of_spelling hitem
          rw [hfront, hfront]
          exact ih (hagrees.follow item)
  | @argument word argument words others hword _ ih =>
      intro options other hagrees
      cases hcount : Config.registerCount argument with
      | error error =>
          rw [parse_of_badArgument hword hcount, parse_of_badArgument hword hcount]
          exact ⟨hagrees, rfl⟩
      | ok count =>
          have hfront : ∀ (options : Options) (rest : List String),
              options.parse (word :: argument :: rest)
                = (options.follow (.registers count)).parse rest :=
            parse_of_spelling (.registers hword hcount)
          rw [hfront, hfront]
          exact ih (hagrees.follow (.registers count))
  | missing hword =>
      intro options other hagrees
      rw [parse_of_missingArgument hword, parse_of_missingArgument hword]
      exact ⟨hagrees, rfl⟩

end Options

/-! ## Before the run -/

/-- The invocation is at the same end, or ready to run machines that differ in their logging alone,
with the same text written until then. -/
inductive Start.Agrees : Start → Start → Prop
  | ended {result other : Result} (h : result.seen = other.seen) :
      Agrees (.ended result) (.ended other)
  | ready {launched other : Launch} (hmachine : launched.machine.silent = other.machine.silent)
      (hstdout : launched.transcript.stdout = other.transcript.stdout) :
      Agrees (.ready launched) (.ready other)

variable {options other : Options}

theorem agrees_launch (h : options.Agrees other) (hregisters : 0 < options.config.registers)
    (tally : Tally) (workspace : Workspace) :
    (launch options tally workspace).Agrees (launch other tally workspace) := by
  rcases Nat.lt_or_ge options.config.registers RegisterFile.limit with hlimit | hlimit
  · obtain ⟨machine, hnew⟩ := Machine.exists_new hregisters workspace.program {} hlimit
    obtain ⟨machineOther, hnewOther⟩ :=
      Machine.exists_new (h.registers ▸ hregisters) workspace.program {} (h.registers ▸ hlimit)
    obtain ⟨launched, hready, rfl, hstdout⟩ := launch_of_new tally workspace hnew
    obtain ⟨launchedOther, hreadyOther, rfl, hstdoutOther⟩ :=
      launch_of_new tally workspace hnewOther
    rw [hready, hreadyOther]
    refine .ready (Machine.silent_eq_of_new hnew hnewOther h.registers) ?_
    rw [hstdout, hstdoutOther, h.dump]
  · obtain ⟨result, hended, hcode, hstdout⟩ := launch_of_overflow tally workspace hlimit
    obtain ⟨resultOther, hendedOther, hcodeOther, hstdoutOther⟩ :=
      launch_of_overflow tally workspace (h.registers ▸ hlimit)
    rw [hended, hendedOther]
    refine .ended ?_
    rw [Result.seen, Result.seen, hcode, hcodeOther, hstdout, hstdoutOther, h.dump]

theorem agrees_load (h : options.Agrees other) (hregisters : 0 < options.config.registers)
    (environment : Environment) (path : String) :
    (load environment path options).Agrees (load environment path other) := by
  rw [load, load]
  by_cases hfound : (environment.file path).found = true
  · simp only [if_pos hfound]
    cases hassembled : Vocabulary.standard.assembleFile path (environment.file path) {} with
    | mk workspace answer =>
        cases answer with
        | error error => exact .ended rfl
        | ok tally => exact agrees_launch h hregisters tally workspace
  · simp only [if_neg hfound]
    exact .ended rfl

theorem agrees_refuseOptions (environment : Environment) (stamped stampedOther : Bool)
    (fault : UsageFault) :
    (refuseOptions environment stamped fault).Agrees
      (refuseOptions environment stampedOther fault) := by
  cases fault <;> exact .ended rfl

theorem agrees_prepare {words others : List String} (h : LoggingApart words others)
    (environment : Environment) (path : String) :
    (prepare environment (path :: words)).Agrees (prepare environment (path :: others)) := by
  rw [prepare, prepare]
  by_cases hhelp : path = "-h" ∨ path = "--help"
  · rw [if_pos hhelp, if_pos hhelp]
    exact .ended rfl
  · rw [if_neg hhelp, if_neg hhelp]
    cases hconfig : Config.ofEnvironment environment.registers with
    | error error => exact .ended rfl
    | ok config =>
        have hself : ({ config } : Options).Agrees { config } := ⟨rfl, rfl⟩
        obtain ⟨hagrees, hfault⟩ := Options.parse_of_loggingApart h hself
        have hregisters := Options.registers_parse_pos { config } words
          (Config.registers_pos_of_ofEnvironment hconfig)
        simp only []
        cases hwords : ({ config } : Options).parse words with
        | mk options fault? =>
            cases hothers : ({ config } : Options).parse others with
            | mk other faultOther? =>
                rw [hwords, hothers] at hagrees hfault
                rw [hwords] at hregisters
                obtain rfl : fault? = faultOther? := hfault
                cases fault? with
                | none => exact agrees_load hagrees hregisters environment path
                | some fault => exact agrees_refuseOptions environment _ _ fault

/-! ## The run -/

theorem Start.Agrees.invoke {environment : Environment} {arguments others : List String}
    (h : (prepare environment arguments).Agrees (prepare environment others)) (steps : Nat) :
    (invoke environment steps arguments).map Result.seen
      = (invoke environment steps others).map Result.seen := by
  generalize hstart : prepare environment arguments = start at h
  generalize hstartOther : prepare environment others = startOther at h
  cases h with
  | ended hseen =>
      rw [invoke_of_ended hstart, invoke_of_ended hstartOther, Option.map_some, Option.map_some,
        hseen]
  | @ready launched other hmachine hstdout =>
      rcases hrun : launched.machine.run steps with ⟨after, count, outcome⟩
      obtain ⟨afterOther, hrunOther, hconsole⟩ := run_of_silent hmachine hrun
      by_cases hgoes : outcome = .continued
      · subst hgoes
        rw [invoke_of_continued hstart hrun, invoke_of_continued hstartOther hrunOther]
      · obtain ⟨result, hinvoke, hcode, hwritten⟩ := invoke_of_run hstart hrun hgoes
        obtain ⟨resultOther, hinvokeOther, hcodeOther, hwrittenOther⟩ :=
          invoke_of_run hstartOther hrunOther hgoes
        rw [hinvoke, hinvokeOther, Option.map_some, Option.map_some, Result.seen, Result.seen,
          hcode, hcodeOther, hwritten, hwrittenOther, hstdout, hconsole]

/-- What the log is written for: a terminal that may tell its name, a variable that may forbid
colors, and the text of the clock at each line. -/
structure Surroundings where
  terminal : Option String
  noColor : Option String
  clock : Nat → String

/-- What an invocation shows. -/
structure Shown where
  code : Nat
  stdout : String
  stderr : String
  deriving DecidableEq, Repr

def Result.shown (surroundings : Surroundings) (result : Result) : Shown where
  code := result.code
  stdout := result.transcript.stdout
  stderr := String.join (result.transcript.log.toList.zipIdx.map fun (line, index) =>
    line.render (Log.usesColors surroundings.terminal surroundings.noColor)
      (surroundings.clock index))

/-- An invocation ends within so many steps or does not, and has the same exit code and the same
standard output at its end, whichever logging words are among its options and in whatever
surroundings its log is written. -/
theorem logging_changes_no_result {words others : List String} (h : LoggingApart words others)
    (environment : Environment) (path : String) (steps : Nat)
    (surroundings surroundingsOther : Surroundings) :
    let shown := (invoke environment steps (path :: words)).map (Result.shown surroundings)
    let shownOther :=
      (invoke environment steps (path :: others)).map (Result.shown surroundingsOther)
    shown.map Shown.code = shownOther.map Shown.code
      ∧ shown.map Shown.stdout = shownOther.map Shown.stdout := by
  intro shown shownOther
  have hseen := (agrees_prepare h environment path).invoke steps
  have hcode := congrArg (Option.map Prod.fst) hseen
  have hstdout := congrArg (Option.map Prod.snd) hseen
  simp only [Option.map_map] at hcode hstdout
  simp only [shown, shownOther, Option.map_map]
  exact ⟨hcode, hstdout⟩

/-- A run that ends with a fault, after a line that was rejected, logged in two ways. -/
theorem logging_changes_no_result_straying :
    let environment : Environment :=
      { program := "machine"
        registers := none
        file := fun _ => .regular straying.toUTF8.data.toList }
    let terminal : Surroundings := ⟨some "xterm", none, fun _ => "00:00:00.000"⟩
    let pipe : Surroundings := ⟨none, some "", fun _ => "23:59:59.999"⟩
    let words := ["-r", "2", "-d"]
    let others := ["--trace", "-r", "2", "--no-timestamp", "-d", "-t"]
    let shown := (invoke environment 9 ("a" :: words)).map (Result.shown terminal)
    let shownOther := (invoke environment 9 ("a" :: others)).map (Result.shown pipe)
    LoggingApart words others
      ∧ shown ≠ shownOther
      ∧ shown.map Shown.code = some 1 ∧ shownOther.map Shown.code = some 1
      ∧ shownOther.map Shown.stdout = shown.map Shown.stdout := by
  intro environment terminal pipe words others shown shownOther
  have hwords : LoggingApart words others :=
    .right (by decide) <| .argument (by decide) <| .right (by decide) <| .both (by decide) <|
      .right (by decide) .nil
  obtain ⟨hcode, hstdout⟩ := logging_changes_no_result hwords environment "a" 9 terminal pipe
  have hfault : shown.map Shown.code = some 1 := by decide +kernel
  exact ⟨hwords, by decide +kernel, hfault, hcode.symm.trans hfault, hstdout.symm⟩

end RegisterMachine.CommandLine
