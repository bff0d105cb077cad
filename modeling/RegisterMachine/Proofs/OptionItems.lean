import RegisterMachine.Proofs.CountPrecedence

/-!
# The words after the path are a row of items

The words are taken as they come, and only the word after a register option is not
looked at as an option itself. So the lists that are read to their end are those
that can be cut into items, where an item is a word that turns something on, or a
register option and the count after it. `Spelled` says this without reading
anything; that reading finds just these lists is `parse_of_spelled` and
`exists_spelled_of_parse`.

What the options are in the end can be told from the items. The last count is the
one in force, and something is turned on if one of the items turns it on, wherever
it stands. A word that looks like an option and is the argument of another one is
no item, and turns nothing on.

The count is positive, because all the places that it can come from give a positive
one. So no machine is refused for its configuration. That does not mean that it is
built: a word can be a count of more registers than there can be, and nothing looks
at that when options are read. Such a count is accepted like any other, and the
invocation breaks off in the middle, when the file has been assembled and the
machine is to be built.
-/

namespace RegisterMachine

/-- The count that the environment sets, if it sets one that can be read. -/
def Config.given? (registers : Option String) : Option Nat :=
  registers.bind fun text => (registerCount text).toOption

theorem Config.ofEnvironment_given {registers : Option String} (h : Readable registers) :
    ofEnvironment registers = .ok { registers := (given? registers).getD 32 } := by
  cases registers with
  | none => rfl
  | some text =>
      obtain ⟨count, hcount⟩ := h text rfl
      rw [ofEnvironment, given?, Option.bind_some, hcount]
      rfl

namespace CommandLine

/-- The words that stand for an option. -/
def Flag.names : Flag → List String
  | registers => ["-r", "--registers"]
  | trace => ["-t", "--trace"]
  | dump => ["-d", "--dump"]
  | noTimestamp => ["--no-timestamp"]

theorem Flag.ofWord?_eq_some_iff {word : String} {flag : Flag} :
    ofWord? word = some flag ↔ word ∈ flag.names := by
  constructor
  · intro h
    rw [ofWord?] at h
    split_ifs at h with hregisters htrace hdump hnoTimestamp <;> obtain rfl := Option.some.inj h
    · simpa [names] using hregisters
    · simpa [names] using htrace
    · simpa [names] using hdump
    · simpa [names] using hnoTimestamp
  · cases flag <;> simp only [names, List.mem_cons, List.not_mem_nil, or_false]
    · rintro (rfl | rfl) <;> rfl
    · rintro (rfl | rfl) <;> rfl
    · rintro (rfl | rfl) <;> rfl
    · rintro rfl
      rfl

/-! ## Items -/

/-- An option, together with its argument if it takes one. -/
inductive Item
  | registers (count : Nat)
  | trace
  | dump
  | noTimestamp
  deriving DecidableEq, Repr

def Item.count? : Item → Option Nat
  | registers count => some count
  | _ => none

/-- The words that an item can be written as. -/
inductive Item.Spelling : Item → List String → Prop
  | registers {word argument : String} {count : Nat} (hword : word ∈ Flag.names .registers)
      (hcount : Config.registerCount argument = .ok count) :
      Spelling (.registers count) [word, argument]
  | trace {word : String} (hword : word ∈ Flag.names .trace) : Spelling .trace [word]
  | dump {word : String} (hword : word ∈ Flag.names .dump) : Spelling .dump [word]
  | noTimestamp {word : String} (hword : word ∈ Flag.names .noTimestamp) :
      Spelling .noTimestamp [word]

/-- Words that are items, one written after the other. -/
inductive Spelled : List Item → List String → Prop
  | nil : Spelled [] []
  | cons {item : Item} {items : List Item} {front rest : List String} (hitem : item.Spelling front)
      (hitems : Spelled items rest) : Spelled (item :: items) (front ++ rest)

namespace Options

/-- The options after one more item. -/
def follow (options : Options) : Item → Options
  | .registers count => options.withRegisters count
  | .trace => options.withTrace
  | .dump => { options with dump := true }
  | .noTimestamp => { options with timestamps := false }

def followAll (options : Options) (items : List Item) : Options :=
  items.foldl follow options

/-! ## Reading finds the items -/

theorem parse_of_spelling {item : Item} {front : List String} (h : item.Spelling front)
    (options : Options) (rest : List String) :
    options.parse (front ++ rest) = (options.follow item).parse rest := by
  cases h with
  | registers hword hcount =>
      simp only [List.cons_append, List.nil_append, parse, Flag.ofWord?_eq_some_iff.2 hword, hcount]
      rfl
  | trace hword | dump hword | noTimestamp hword =>
      rw [List.singleton_append, parse.eq_def]
      simp only [Flag.ofWord?_eq_some_iff.2 hword]
      rfl

theorem parse_of_spelled {items : List Item} {words : List String} (h : Spelled items words) :
    ∀ options : Options, options.parse words = (options.followAll items, none) := by
  induction h with
  | nil => exact fun options => rfl
  | cons hitem _ ih =>
      intro options
      rw [parse_of_spelling hitem, ih]
      rfl

theorem exists_spelled_of_parse {options : Options} {words : List String}
    (h : (options.parse words).2 = none) : ∃ items, Spelled items words := by
  fun_induction parse options words with
  | case1 => exact ⟨[], .nil⟩
  | case2 | case6 | case7 => cases h
  | case3 options word words hflag ih =>
      obtain ⟨items, hitems⟩ := ih h
      exact ⟨_, .cons (.trace (Flag.ofWord?_eq_some_iff.1 hflag)) hitems⟩
  | case4 options word words hflag ih =>
      obtain ⟨items, hitems⟩ := ih h
      exact ⟨_, .cons (.dump (Flag.ofWord?_eq_some_iff.1 hflag)) hitems⟩
  | case5 options word words hflag ih =>
      obtain ⟨items, hitems⟩ := ih h
      exact ⟨_, .cons (.noTimestamp (Flag.ofWord?_eq_some_iff.1 hflag)) hitems⟩
  | case8 options word hflag argument words count hcount ih =>
      obtain ⟨items, hitems⟩ := ih h
      exact ⟨_, .cons (.registers (Flag.ofWord?_eq_some_iff.1 hflag) hcount) hitems⟩

/-! ## What the items come to -/

theorem registers_followAll (items : List Item) :
    ∀ options : Options, (options.followAll items).config.registers
      = ((items.filterMap Item.count?).getLast?).getD options.config.registers := by
  induction items with
  | nil => exact fun options => rfl
  | cons item items ih =>
      intro options
      rw [followAll, List.foldl_cons, ← followAll, ih]
      cases item with
      | registers count =>
          rw [List.filterMap_cons, Item.count?, List.getLast?_cons]
          rfl
      | trace | dump | noTimestamp => rfl

/-- What no item turns off has been turned on by one of the items, or was on before. -/
theorem followAll_iff {P : Options → Prop} {switch : Item}
    (h : ∀ options item, P (options.follow item) ↔ P options ∨ switch = item) (items : List Item) :
    ∀ options : Options, P (options.followAll items) ↔ P options ∨ switch ∈ items := by
  induction items with
  | nil => exact fun options => (or_iff_left List.not_mem_nil).symm
  | cons item items ih =>
      intro options
      rw [followAll, List.foldl_cons, ← followAll, ih, h, List.mem_cons, or_assoc]

theorem trace_followAll (items : List Item) (options : Options) :
    (options.followAll items).config.trace = true
      ↔ options.config.trace = true ∨ .trace ∈ items := by
  refine followAll_iff (P := fun options => options.config.trace = true) (fun options item => ?_)
    items options
  cases item <;> simp [follow, withRegisters, withTrace]

theorem dump_followAll (items : List Item) (options : Options) :
    (options.followAll items).dump = true ↔ options.dump = true ∨ .dump ∈ items := by
  refine followAll_iff (P := fun options => options.dump = true) (fun options item => ?_) items
    options
  cases item <;> simp [follow, withRegisters, withTrace]

theorem timestamps_followAll (items : List Item) (options : Options) :
    (options.followAll items).timestamps = false
      ↔ options.timestamps = false ∨ .noTimestamp ∈ items := by
  refine followAll_iff (P := fun options => options.timestamps = false) (fun options item => ?_)
    items options
  cases item <;> simp [follow, withRegisters, withTrace]

end Options

/-! ## The invocation -/

variable {environment : Environment} {path : String} {words : List String}

/-- What is refused is refused before the file is looked at. -/
theorem invoke_of_refused {config : Config} (hpath : path ≠ "-h" ∧ path ≠ "--help")
    (henvironment : Config.ofEnvironment environment.registers = .ok config)
    (hrefused : (({ config } : Options).parse words).2 ≠ none) :
    ∃ result : Result, result.code = 1 ∧ result.transcript.stdout = ""
      ∧ ∀ file steps, invoke { environment with file } steps (path :: words) = some result := by
  cases hparse : ({ config } : Options).parse words with
  | mk options fault? =>
      rw [hparse] at hrefused
      obtain ⟨fault, rfl⟩ := Option.ne_none_iff_exists'.1 hrefused
      have hprepare : ∀ file, prepare { environment with file } (path :: words)
          = refuseOptions environment options.timestamps fault := by
        intro file
        rw [prepare, if_neg (not_or.2 hpath)]
        simp only [henvironment, hparse]
        rfl
      cases fault with
      | missingArgument flag =>
          exact ⟨_, rfl, rfl, fun file => invoke_of_ended (hprepare file)⟩
      | badArgument error => exact ⟨_, rfl, rfl, fun file => invoke_of_ended (hprepare file)⟩
      | unexpected word => exact ⟨_, rfl, rfl, fun file => invoke_of_ended (hprepare file)⟩

/-- In an environment that sets no count, or one that can be read, the words after the path are
read to their end if and only if they are items. Then the invocation goes on to its file. The count
in force is that of the last item that gives one, or else that of the environment, or else 32. If it
is below the limit, a machine with so many registers is built for any program. From the limit on
none is built for any program, and an invocation whose file is assembled breaks off. Tracing and
listing are on, and timestamps off, if there is an item that says so. Words that are no items end
the invocation with exit code 1 and nothing on the standard output, in the same way whatever the
file is. -/
theorem options_are_items (hpath : path ≠ "-h" ∧ path ≠ "--help")
    (hreadable : Config.Readable environment.registers) (words : List String) :
    ∃ config, Config.ofEnvironment environment.registers = .ok config
      ∧ ((({ config } : Options).parse words).2 = none ↔ ∃ items, Spelled items words)
      ∧ (∀ items, Spelled items words → ∃ options : Options,
          ({ config } : Options).parse words = (options, none)
            ∧ prepare environment (path :: words) = load environment path options
            ∧ options.config.registers
              = ((items.filterMap Item.count?).getLast?.or
                  (Config.given? environment.registers)).getD 32
            ∧ 0 < options.config.registers
            ∧ (options.config.registers < RegisterFile.limit →
                ∀ program console, ∃ machine,
                  Machine.new options.config program console = .ok machine)
            ∧ (RegisterFile.limit ≤ options.config.registers →
                (∀ program console, Machine.new options.config program console = .error .overflow)
                  ∧ ∀ content tally, environment.file path = .regular content →
                    (Vocabulary.standard.assemble { bytes := content } {}).2 = .ok tally →
                    ∃ result : Result, result.code = brokenOff
                      ∧ ∀ steps, invoke environment steps (path :: words) = some result)
            ∧ (options.config.trace = true ↔ .trace ∈ items)
            ∧ (options.dump = true ↔ .dump ∈ items)
            ∧ (options.timestamps = false ↔ .noTimestamp ∈ items))
      ∧ ((¬ ∃ items, Spelled items words) → ∃ result : Result,
          result.code = 1 ∧ result.transcript.stdout = ""
            ∧ ∀ file steps,
              invoke { environment with file } steps (path :: words) = some result) := by
  have henvironment := Config.ofEnvironment_given hreadable
  have haccepted : ∀ options : Options,
      (options.parse words).2 = none ↔ ∃ items, Spelled items words := by
    intro options
    refine ⟨Options.exists_spelled_of_parse, ?_⟩
    rintro ⟨items, hitems⟩
    rw [Options.parse_of_spelled hitems]
  refine ⟨_, henvironment, haccepted _, fun items hitems => ?_, fun hnone => ?_⟩
  · let initial : Options :=
      { config := { registers := (Config.given? environment.registers).getD 32 } }
    have hparse := Options.parse_of_spelled hitems initial
    have hpositive := Options.registers_parse_pos initial words
      (Config.registers_pos_of_ofEnvironment henvironment)
    rw [hparse] at hpositive
    have hprepare := prepare_of_accepted hpath henvironment hparse
    have hbreaks : RegisterFile.limit ≤ (initial.followAll items).config.registers →
        ∀ content tally, environment.file path = .regular content →
          (Vocabulary.standard.assemble { bytes := content } {}).2 = .ok tally →
          ∃ result : Result, result.code = brokenOff
            ∧ ∀ steps, invoke environment steps (path :: words) = some result := by
      intro hlimit content tally hfile htally
      obtain ⟨result, hload, hcode, -⟩ := load_of_overflow hfile (Prod.ext rfl htally) hlimit
      exact ⟨result, hcode, invoke_of_ended (hprepare.trans hload)⟩
    refine ⟨_, hparse, hprepare, ?_, hpositive,
      fun hlimit program console => Machine.exists_new hpositive program console hlimit,
      fun hlimit => ⟨Machine.new_eq_overflow hlimit, hbreaks hlimit⟩, ?_, ?_, ?_⟩
    · rw [Options.registers_followAll]
      cases (items.filterMap Item.count?).getLast? <;> rfl
    · rw [Options.trace_followAll]
      exact or_iff_right Bool.false_ne_true
    · rw [Options.dump_followAll]
      exact or_iff_right Bool.false_ne_true
    · rw [Options.timestamps_followAll]
      exact or_iff_right Bool.true_eq_false.mp
  · exact invoke_of_refused hpath henvironment fun hparse => hnone ((haccepted _).1 hparse)

/-- Options that stand for themselves and options that are meant as arguments. -/
theorem options_are_items_asArguments :
    let environment := farReader (some " 3 ")
    let words := ["-r", "+07 ", "--trace", "--registers", "64", "-t"]
    (∃ options : Options,
        prepare environment ("a" :: words) = load environment "a" options
          ∧ options.config.registers = 64 ∧ options.config.trace = true ∧ options.dump = false
          ∧ ∃ machine, Machine.new options.config {} {} = .ok machine)
      ∧ (¬ ∃ items, Spelled items ["-t", "--registers", "-d"])
      ∧ ∃ result : Result, result.code = 1 ∧ result.transcript.stdout = ""
        ∧ invoke { environment with file := fun _ => .missing } 5 ["a", "-t", "--registers", "-d"]
          = some result := by
  intro environment words
  have hpath : "a" ≠ "-h" ∧ "a" ≠ "--help" := by decide
  have hreadable : Config.Readable environment.registers := by
    intro text htext
    obtain rfl := Option.some.inj htext
    exact ⟨3, by decide⟩
  have hitems : Spelled [.registers 7, .trace, .registers 64, .trace] words :=
    .cons (.registers (by decide) (by decide)) <| .cons (.trace (by decide)) <|
      .cons (.registers (by decide) (by decide)) <| .cons (.trace (by decide)) .nil
  obtain ⟨config, -, -, haccepted, -⟩ := options_are_items hpath hreadable words
  obtain ⟨options, -, hprepare, hregisters, -, hbuilt, -, htrace, hdump, -⟩ := haccepted _ hitems
  have hnew := hbuilt (by rw [hregisters]; decide)
  obtain ⟨config, henvironment, hiff, -, hrefused⟩ :=
    options_are_items hpath hreadable ["-t", "--registers", "-d"]
  obtain rfl : { registers := 3 } = config := Except.ok.inj henvironment
  have hnone : ¬ ∃ items, Spelled items ["-t", "--registers", "-d"] := by
    rw [← hiff]
    decide
  obtain ⟨result, hcode, hstdout, hinvoke⟩ := hrefused hnone
  refine ⟨⟨options, hprepare, hregisters, htrace.2 (by decide), ?_, hnew {} {}⟩, hnone, result,
    hcode, hstdout, hinvoke _ 5⟩
  exact Bool.eq_false_iff.2 fun h => absurd (hdump.1 h) (by decide)

/-- The first count that is too great, with a program that nothing is wrong with. -/
theorem invoke_at_limit :
    let words := ["-r", "1152921504606846976"]
    let options : Options := { config := { registers := 1152921504606846976 } }
    Spelled [.registers 1152921504606846976] words
      ∧ prepare (farReader none) ("a" :: words) = load (farReader none) "a" options
      ∧ (∀ program console, Machine.new options.config program console = .error .overflow)
      ∧ (invoke (farReader none) 2 ("a" :: words)).map Result.seen = some (101, "") := by
  intro words options
  have hlimit : RegisterFile.limit ≤ options.config.registers := by decide
  exact ⟨.cons (.registers (by decide) (by decide)) .nil,
    prepare_of_accepted (by decide) rfl (show _ = (options, none) by decide),
    Machine.new_eq_overflow hlimit, by decide +kernel⟩

end CommandLine

end RegisterMachine
