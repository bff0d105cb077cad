import RegisterMachine.Assembly.Basic
import RegisterMachine.Proofs.OperandSlots

/-!
# A new mnemonic leaves old sources alone

A line asks the vocabulary about its first two tokens and about nothing else.
The first may be a mnemonic or a label, which the second helps to decide, and
one of the two is looked up; what follows them is read by the format that was
found. So two vocabularies that tell the same about the first two tokens of
every line make the same of a source, and the notices on its way are the same
too.

A mnemonic or an alias that is entered changes what is told about the names that
normalize like it, and about no others. A source in which no line has such a
name among its first two tokens does not notice, though other tokens, operands
for instance, may well be spelled like it. This holds whether or not the name
was known before.
-/

namespace RegisterMachine

/-- The tokens of a line that its reading asks the vocabulary about. -/
def consulted (line : String) : List String :=
  (Scanner.ofLine line).tokens.take 2

namespace Vocabulary

variable {one other : Vocabulary}

/-! ## Vocabularies that agree -/

theorem contains_congr {name : String} (h : one.find? name = other.find? name) :
    one.contains name = other.contains name := by
  rw [contains, contains, h]

theorem startsUnlabeled_congr {first : String} {second : Option String}
    (hfirst : one.find? first = other.find? first)
    (hsecond : ∀ token ∈ second, one.find? token = other.find? token) :
    one.startsUnlabeled first second = other.startsUnlabeled first second := by
  rw [startsUnlabeled, startsUnlabeled, contains_congr hfirst]
  cases second with
  | none => rfl
  | some token => rw [Option.any_some, Option.any_some, contains_congr (hsecond token rfl)]

theorem readOperands_congr {name : String} (h : one.find? name = other.find? name) (label : String)
    (scanner : Scanner) (reference : String) :
    one.readOperands label name scanner reference
      = other.readOperands label name scanner reference := by
  rw [readOperands, readOperands, decode, decode, lookup, lookup, h]

theorem readLine_congr {line : String}
    (h : ∀ token ∈ consulted line, one.find? token = other.find? token) (number : Nat) :
    one.readLine number line = other.readLine number line := by
  rw [consulted] at h
  cases htokens : (Scanner.ofLine line).tokens with
  | nil =>
      obtain ⟨after, hscan⟩ := Scanner.scan_of_tokens_nil htokens
      rw [readLine, readLine, hscan]
  | cons first rest =>
      obtain ⟨afterFirst, hscan, hrest⟩ := Scanner.scan_of_tokens_cons htokens
      have hfirst : one.find? first = other.find? first := by
        refine h first ?_
        rw [htokens]
        exact List.mem_cons_self
      have hsecond : ∀ second ∈ afterFirst.tokens.head?, one.find? second = other.find? second := by
        intro second hmem
        refine h second ?_
        rw [htokens, ← hrest, List.take_succ_cons, List.take_one]
        exact List.mem_cons_of_mem _ (Option.mem_toList.2 hmem)
      have hstarts := startsUnlabeled_congr hfirst hsecond
      rw [← Scanner.peek_eq_head?] at hstarts
      rw [readLine, readLine, hscan]
      simp only [hstarts, readOperands_congr hfirst]
      split
      · rfl
      · cases hname : afterFirst.tokens with
        | nil =>
            obtain ⟨after, hscanName⟩ := Scanner.scan_of_tokens_nil hname
            rw [hscanName]
        | cons name operands =>
            obtain ⟨afterName, hscanName, -⟩ := Scanner.scan_of_tokens_cons hname
            rw [hscanName]
            rw [hname] at hsecond
            exact readOperands_congr (hsecond name rfl) first afterName first

theorem assembleLines_congr {lines : List String} :
    (∀ line ∈ lines, ∀ token ∈ consulted line, one.find? token = other.find? token) →
      ∀ (number : Nat) (workspace : Workspace) (tally : Tally),
        one.assembleLines number lines workspace tally
          = other.assembleLines number lines workspace tally := by
  induction lines with
  | nil => exact fun _ number workspace tally => rfl
  | cons line lines ih =>
      intro h number workspace tally
      have hrest := ih fun later hlater => h later (List.mem_cons_of_mem _ hlater)
      simp only [assembleLines, readLine_congr (h line List.mem_cons_self), hrest]

theorem assemble_congr {source : Source}
    (h : ∀ line ∈ source.lines, ∀ token ∈ consulted line, one.find? token = other.find? token)
    (workspace : Workspace) : one.assemble source workspace = other.assemble source workspace := by
  rw [assemble, assemble, assembleLines_congr h]

/-! ## Entering a name -/

variable {vocabulary : Vocabulary} {name : String} {source : Source}

theorem assemble_insert
    (hfree : ∀ line ∈ source.lines, ∀ token ∈ consulted line, normalize token ≠ normalize name)
    (mnemonic : Mnemonic) (workspace : Workspace) :
    (vocabulary.insert name mnemonic).assemble source workspace
      = vocabulary.assemble source workspace := by
  refine assemble_congr (fun line hline token htoken => ?_) workspace
  rw [find?_insert, if_neg fun hsame => hfree line hline token htoken hsame.symm]

/-- A source that has no spelling of a name among the first two tokens of a line is assembled alike
with and without the name, be it entered with a format of its own or as an alias. -/
theorem assemble_enlarged (vocabulary : Vocabulary) (name : String) (source : Source)
    (hfree : ∀ line ∈ source.lines, ∀ token ∈ consulted line, normalize token ≠ normalize name)
    (workspace : Workspace) :
    (∀ format, (vocabulary.enter name format).assemble source workspace
        = vocabulary.assemble source workspace)
      ∧ ∀ model, vocabulary.contains model = true →
        ∃ enlarged, vocabulary.enterAlias name model = .ok enlarged
          ∧ enlarged.assemble source workspace = vocabulary.assemble source workspace := by
  refine ⟨fun format => assemble_insert hfree ⟨name, format⟩ workspace, fun model hmodel => ?_⟩
  obtain ⟨mnemonic, hfind⟩ := Option.isSome_iff_exists.1 hmodel
  refine ⟨vocabulary.insert name mnemonic, ?_, assemble_insert hfree mnemonic workspace⟩
  rw [enterAlias, lookup, hfind]
  rfl

/-- A source that has a name as a target, as the beginning of a label and as a token too many. -/
def nearlyNamed : Source :=
  .ofText "lin 0 5\nbnz 0 clr\nclrx out 0\nout 0 CLR"

theorem assemble_enlarged_nearlyNamed :
    (∀ line ∈ nearlyNamed.lines, ∀ token ∈ consulted line, normalize token ≠ normalize "Clr")
      ∧ (standard.assemble nearlyNamed {}).1.console.lines
        = #["Parse Error: Too many operands for out, unexpected CLR on line 4"]
      ∧ (∀ format, (standard.enter "Clr" format).assemble nearlyNamed {}
        = standard.assemble nearlyNamed {})
      ∧ ∃ enlarged, standard.enterAlias "Clr" "OUT" = .ok enlarged
        ∧ enlarged.assemble nearlyNamed {} = standard.assemble nearlyNamed {} := by
  have hfree : ∀ line ∈ nearlyNamed.lines, ∀ token ∈ consulted line,
      normalize token ≠ normalize "Clr" := by decide +kernel
  have hnamed : Opcode.out.Named "OUT" := by
    rw [Opcode.Named]
    decide +kernel
  obtain ⟨henter, halias⟩ := assemble_enlarged standard "Clr" nearlyNamed hfree {}
  exact ⟨hfree, by decide +kernel, henter, halias "OUT" (contains_standard_iff.2 ⟨.out, hnamed⟩)⟩

end Vocabulary

end RegisterMachine
