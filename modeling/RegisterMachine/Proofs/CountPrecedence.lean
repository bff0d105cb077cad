import RegisterMachine.Proofs.Phases

/-!
# Which register count is in force

The environment gives the register count that options start from, and an option
that sets the count leaves nothing of it. So two environments make no difference
to an invocation whose options set the count: not to its exit code, not to its
output, and not to its log either.

That holds of environments that can be read. A count that is set to something
else ends the invocation before its options are looked at, also when they would
have set another count, and nothing but the complaint about it is written. Only
a call for help comes before that.
-/

namespace RegisterMachine

namespace Config

/-- The environment sets no register count, or one that can be read. -/
def Readable (registers : Option String) : Prop :=
  ∀ text ∈ registers, ∃ count, registerCount text = .ok count

theorem ofEnvironment_of_readable {registers : Option String} (h : Readable registers) :
    ∃ count, ofEnvironment registers = .ok { registers := count } := by
  cases registers with
  | none => exact ⟨_, rfl⟩
  | some text =>
      obtain ⟨count, hcount⟩ := h text rfl
      exact ⟨count, by rw [ofEnvironment, hcount]; rfl⟩

theorem ofEnvironment_of_not_readable {registers : Option String} (h : ¬ Readable registers) :
    ∃ error, ofEnvironment registers = .error error := by
  cases registers with
  | none => exact absurd nofun h
  | some text =>
      cases hcount : registerCount text with
      | error error => exact ⟨error, by rw [ofEnvironment, hcount]; rfl⟩
      | ok count =>
          refine absurd (fun other hother => ?_) h
          obtain rfl := Option.some.inj hother
          exact ⟨count, hcount⟩

end Config

namespace CommandLine

/-! ## Options that set the count -/

/-- The words are read to their end as options. -/
def Accepted (words : List String) : Prop :=
  ∃ options, ({ config := {} } : Options).parse words = (options, none)

/-- One of the words sets the register count. Where the words are accepted, it cannot be there as an
argument, since it is no register count itself. -/
def SetsCount (words : List String) : Prop :=
  "-r" ∈ words ∨ "--registers" ∈ words

theorem SetsCount.of_cons {word : String} {words : List String} {flag : Flag}
    (h : SetsCount (word :: words)) (hword : Flag.ofWord? word = some flag)
    (hother : flag ≠ .registers) : SetsCount words := by
  have hrest : ∀ setter, Flag.ofWord? setter = some .registers → setter ∈ word :: words →
      setter ∈ words := by
    intro setter hsetter hmem
    rcases List.mem_cons.1 hmem with rfl | hrest
    · exact absurd (Option.some.inj (hword.symm.trans hsetter)) hother
    · exact hrest
  exact h.imp (hrest "-r" rfl) (hrest "--registers" rfl)

/-- Options that set the count are the same in the end, whatever count they start from. -/
theorem Options.parse_withRegisters (options : Options) (words : List String)
    (haccepted : (options.parse words).2 = none) (hsets : SetsCount words) (count : Nat) :
    (options.withRegisters count).parse words = options.parse words := by
  fun_induction Options.parse options words with
  | case1 options => exact absurd hsets (by simp [SetsCount])
  | case2 | case6 | case7 => cases haccepted
  | case3 options word words hflag ih
  | case4 options word words hflag ih
  | case5 options word words hflag ih =>
      rw [parse.eq_def]
      simp only [hflag]
      exact ih haccepted (hsets.of_cons hflag (by decide))
  | case8 options word hflag argument words read hread ih =>
      -- The count that was there before is gone with this word.
      rw [parse.eq_def]
      simp only [hflag, hread]
      rfl

/-- Whether words are accepted is nothing that the count they start from has a say in. -/
theorem Accepted.exists_parse {words : List String} (haccepted : Accepted words)
    (hsets : SetsCount words) :
    ∃ options : Options, ∀ count,
      ({ config := { registers := count } } : Options).parse words = (options, none) := by
  obtain ⟨options, hparse⟩ := haccepted
  refine ⟨options, fun count => ?_⟩
  rw [← hparse]
  exact Options.parse_withRegisters _ words (by rw [hparse]) hsets count

/-! ## Invocations under two environments -/

variable {environment : Environment} {path : String} {words : List String}

theorem prepare_of_not_readable {value : Option String} (hvalue : ¬ Config.Readable value)
    (hpath : path ≠ "-h" ∧ path ≠ "--help") :
    ∃ error : Error, prepare { environment with registers := value } (path :: words)
      = refuse {} true error.message := by
  obtain ⟨error, herror⟩ := Config.ofEnvironment_of_not_readable hvalue
  refine ⟨error, ?_⟩
  rw [prepare, if_neg (not_or.2 hpath)]
  simp only [herror]

theorem prepare_of_readable (haccepted : Accepted words) (hsets : SetsCount words)
    {first second : Option String} (hfirst : Config.Readable first)
    (hsecond : Config.Readable second) :
    prepare { environment with registers := first } (path :: words)
      = prepare { environment with registers := second } (path :: words) := by
  by_cases hhelp : path = "-h" ∨ path = "--help"
  · rw [prepare, prepare, if_pos hhelp, if_pos hhelp]
    rfl
  · have hpath := not_or.1 hhelp
    obtain ⟨options, hparse⟩ := haccepted.exists_parse hsets
    obtain ⟨one, hone⟩ := Config.ofEnvironment_of_readable hfirst
    obtain ⟨two, htwo⟩ := Config.ofEnvironment_of_readable hsecond
    -- What is left of an environment then is its files.
    rw [prepare_of_accepted hpath hone (hparse one), prepare_of_accepted hpath htwo (hparse two)]
    rfl

/-- What can be told of an invocation without its log. -/
def Result.seen (result : Result) : Nat × String :=
  (result.code, result.transcript.stdout)

/-- Where options set the register count, an invocation goes the same way in all environments whose
own count is unset or can be read. In one that has any other count nothing is run and nothing is
printed, whatever the options set. -/
theorem invoke_of_setsCount (haccepted : Accepted words) (hsets : SetsCount words)
    (environment : Environment) (path : String) (steps : Nat) :
    (∀ first second, Config.Readable first → Config.Readable second →
        invoke { environment with registers := first } steps (path :: words)
          = invoke { environment with registers := second } steps (path :: words))
      ∧ ∀ value, ¬ Config.Readable value → path ≠ "-h" ∧ path ≠ "--help" →
        (invoke { environment with registers := value } steps (path :: words)).map Result.seen
          = some (1, "") := by
  refine ⟨fun first second hfirst hsecond => ?_, fun value hvalue hpath => ?_⟩
  · rw [invoke, invoke, prepare_of_readable haccepted hsets hfirst hsecond]
  · obtain ⟨error, hprepare⟩ := prepare_of_not_readable hvalue hpath
    rw [invoke_of_ended hprepare]
    rfl

/-- A program that reads a register beyond those that there are by default, in an environment that
sets the count. -/
def farReader (registers : Option String) : Environment where
  program := "machine"
  registers := registers
  file := fun _ => .regular "out 40".toUTF8.data.toList

theorem not_readable_zero : ¬ Config.Readable (some "zero") := by
  intro h
  obtain ⟨count, hcount⟩ := h "zero" rfl
  have hbad : Config.registerCount "zero" = .error (.invalidRegisterCount "zero") := rfl
  rw [hbad] at hcount
  cases hcount

theorem invoke_of_setsCount_farReader :
    let words := ["-r", "1", "--trace", "--registers", "64"]
    Accepted words ∧ SetsCount words
      ∧ invoke (farReader (some " 3 ")) 2 ("a" :: words) = invoke (farReader none) 2 ("a" :: words)
      ∧ (invoke (farReader none) 2 ("a" :: words)).map Result.seen = some (0, "0\n")
      ∧ (invoke (farReader (some "zero")) 2 ("a" :: words)).map Result.seen = some (1, "") := by
  intro words
  have haccepted : Accepted words :=
    ⟨{ config := { registers := 64, trace := true } }, by decide⟩
  have hsets : SetsCount words := .inl List.mem_cons_self
  have hsmall : Config.Readable (some " 3 ") := by
    intro text htext
    obtain rfl := Option.some.inj htext
    exact ⟨3, by decide⟩
  obtain ⟨hsame, hgivenUp⟩ := invoke_of_setsCount haccepted hsets (farReader none) "a" 2
  exact ⟨haccepted, hsets, hsame (some " 3 ") none hsmall nofun, by decide +kernel,
    hgivenUp (some "zero") not_readable_zero (by decide)⟩

/-- A count that is set by an option does not make up for one in the environment that cannot be
read. -/
theorem invoke_ne_of_not_readable :
    Accepted ["-r", "64"] ∧ SetsCount ["-r", "64"]
      ∧ (invoke (farReader none) 2 ["a", "-r", "64"]).map Result.seen = some (0, "0\n")
      ∧ (invoke (farReader (some "zero")) 2 ["a", "-r", "64"]).map Result.seen = some (1, "") :=
  ⟨⟨{ config := { registers := 64 } }, by decide⟩, .inl List.mem_cons_self, by decide +kernel,
    by decide +kernel⟩

end CommandLine

end RegisterMachine
