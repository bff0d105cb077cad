import RegisterMachine.Machine.Config

/-!
# The options of an invocation

After the path of the program come options, in any order and as often as one
likes; of several register counts the last one holds. Only the register count
takes an argument, which is the next word, whatever it looks like.

Reading stops at the first word that is wrong. The options read until then are
not lost, since they have a say in how the fault is logged.
-/

namespace RegisterMachine.CommandLine

/-- What the words of a command line can change. -/
structure Options where
  config : Config
  /-- Whether to print the program before running it. -/
  dump : Bool := false
  /-- Whether log lines show the time. -/
  timestamps : Bool := true
  deriving DecidableEq, Repr, Inhabited

/-- The words that are options. -/
inductive Flag
  | registers
  | trace
  | dump
  | noTimestamp
  deriving DecidableEq, Repr, Inhabited

/-- The option that a word stands for. -/
def Flag.ofWord? (word : String) : Option Flag :=
  if word = "-r" ∨ word = "--registers" then some .registers
  else if word = "-t" ∨ word = "--trace" then some .trace
  else if word = "-d" ∨ word = "--dump" then some .dump
  else if word = "--no-timestamp" then some .noTimestamp
  else none

/-- What can be wrong with a word among the options. -/
inductive UsageFault
  /-- The option is the last word, and needs another. -/
  | missingArgument (flag : String)
  /-- The argument is no register count. -/
  | badArgument (error : Error)
  /-- The word is not an option. -/
  | unexpected (word : String)
  deriving DecidableEq, Repr, Inhabited

/-- The sentence that reports a wrong word. -/
def UsageFault.message : UsageFault → String
  | missingArgument flag => flag ++ " requires an argument"
  | badArgument error => error.message
  | unexpected word => "Unexpected argument: " ++ word ++ "\n"

namespace Options

/-- The options with another register count. -/
def withRegisters (options : Options) (registers : Nat) : Options :=
  { options with config := { options.config with registers } }

/-- The options with tracing turned on. -/
def withTrace (options : Options) : Options :=
  { options with config := { options.config with trace := true } }

/-- Reads the words after the path. The options are those in force at the end, or at the word that
is wrong. -/
def parse (options : Options) : List String → Options × Option UsageFault
  | [] => (options, none)
  | word :: words =>
    match Flag.ofWord? word with
    | none => (options, some (.unexpected word))
    | some .trace => options.withTrace.parse words
    | some .dump => { options with dump := true : Options }.parse words
    | some .noTimestamp => { options with timestamps := false : Options }.parse words
    | some .registers =>
      match words with
      | [] => (options, some (.missingArgument word))
      | argument :: words =>
        match Config.registerCount argument with
        | .error error => (options, some (.badArgument error))
        | .ok count => (options.withRegisters count).parse words

end Options

end RegisterMachine.CommandLine
