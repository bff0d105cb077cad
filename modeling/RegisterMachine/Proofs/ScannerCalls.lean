import RegisterMachine.Proofs.Spellings

/-!
# A scanner under any mixture of calls

The tokens of a line are the runs of characters between its separators, and `Runs`
says so of a text from left to right: separators, a word that goes on to the next
separator or to the end, and then the same again. A text has one list of runs.

What a scanner does is known from the runs of what it has left. A scan gives the first
of them and leaves the others, and where there is none it gives none and leaves none
(`Runs.scan`). A look ahead gives the first and leaves everything. So one invariant
goes through calls of all kinds in any order: what is left has the runs of the line
less as many as there were scans.
-/

namespace RegisterMachine

/-- The longest runs of characters that are no separators, from left to right. -/
inductive Runs : List Char → List String → Prop
  | blank {gap : List Char} (hseparates : ∀ c ∈ gap, isSeparator c = true) : Runs gap []
  | word {gap rest : List Char} {token : String} {words : List String}
      (hseparates : ∀ c ∈ gap, isSeparator c = true) (hwhole : IsToken token)
      (hends : ∀ c ∈ rest.head?, isSeparator c = true) (hothers : Runs rest words) :
      Runs (gap ++ (token.toList ++ rest)) (token :: words)

variable {scanner after : Scanner} {text : List Char} {token : String} {words : List String}

namespace Scanner

/-- What can be asked of a scanner. -/
inductive Call
  | scan
  | peek
  | exhausted
  deriving DecidableEq, Repr

inductive Answer
  | token (next : Option String)
  | verdict (ended : Bool)
  deriving DecidableEq, Repr

/-- What a call should answer when this token, or none, is next. -/
def Call.answer (next : Option String) : Call → Answer
  | scan => .token next
  | peek => .token next
  | exhausted => .verdict next.isNone

/-- The answer to a call, and the scanner after it. -/
def call (scanner : Scanner) : Call → Answer × Scanner
  | .scan => (.token scanner.scan.1, scanner.scan.2)
  | .peek => (.token scanner.peek, scanner)
  | .exhausted => (.verdict scanner.exhausted, scanner)

/-- The answers to calls that are made one after the other. -/
def answers (scanner : Scanner) : List Call → List Answer
  | [] => []
  | call :: calls => (scanner.call call).1 :: (scanner.call call).2.answers calls

theorem length_rest_of_scan (h : scanner.scan = (some token, after)) :
    after.rest.length < scanner.rest.length := by
  obtain ⟨blanks, hparts, -, -⟩ := exists_of_scan h
  obtain ⟨c, rest, hcons⟩ := (isToken_of_scan h).exists_cons
  rw [hparts, hcons]
  simp only [List.length_append, List.length_cons]
  omega

/-! ## The runs of a text -/

theorem runs_tokens (scanner : Scanner) : Runs scanner.rest scanner.tokens := by
  cases hscan : scanner.scan with
  | mk next after =>
      cases next with
      | none =>
          have hnone : scanner.tokens = [] := by rw [tokens_eq_scan, hscan]
          rw [hnone]
          exact .blank (isSeparator_of_tokens_eq_nil hnone)
      | some token =>
          have := length_rest_of_scan hscan
          obtain ⟨blanks, hparts, hblanks, hends⟩ := exists_of_scan hscan
          rw [hparts, tokens_of_scan hscan]
          exact .word hblanks (isToken_of_scan hscan) hends after.runs_tokens
termination_by scanner.rest.length

end Scanner

theorem Runs.eq_tokens (h : Runs text words) : words = Scanner.tokens ⟨text⟩ := by
  induction h with
  | blank hseparates => exact (Scanner.tokens_of_separators hseparates).symm
  | word hseparates hwhole hends _ ih =>
      rw [Scanner.tokens_of_scan (Scanner.scan_of_token hseparates hwhole hends), ih]

namespace Scanner

theorem runs_iff : Runs scanner.rest words ↔ words = scanner.tokens := by
  constructor
  · exact Runs.eq_tokens
  · rintro rfl
    exact scanner.runs_tokens

/-! ## Calls -/

theorem tokens_after_scan (scanner : Scanner) : scanner.scan.2.tokens = scanner.tokens.tail := by
  cases hscan : scanner.scan with
  | mk next after =>
      cases next with
      | some token => rw [tokens_of_scan hscan, List.tail_cons]
      | none =>
          have hafter : after = ⟨[]⟩ := by
            rw [scan] at hscan
            split at hscan <;> cases hscan
            rfl
          rw [tokens_eq_scan scanner, hscan, hafter]
          rfl

theorem answer_call (scanner : Scanner) (call : Call) :
    (scanner.call call).1 = call.answer scanner.tokens.head? := by
  rw [← peek_eq_head?]
  cases call <;> rfl

theorem tokens_call (scanner : Scanner) (call : Call) :
    (scanner.call call).2.tokens = scanner.tokens.drop ([call].count .scan) := by
  cases call with
  | scan => exact scanner.tokens_after_scan.trans List.drop_one.symm
  | peek => rfl
  | exhausted => rfl

theorem getElem?_answers (calls : List Call) :
    ∀ (scanner : Scanner) (i : Nat), (scanner.answers calls)[i]?
      = calls[i]?.map fun call => call.answer scanner.tokens[(calls.take i).count .scan]? := by
  induction calls with
  | nil => exact fun _ _ => rfl
  | cons call calls ih =>
      intro scanner i
      cases i with
      | zero =>
          rw [answers, List.getElem?_cons_zero, answer_call, List.head?_eq_getElem?]
          rfl
      | succ i =>
          have hcount : ((call :: calls).take (i + 1)).count .scan
              = [call].count .scan + (calls.take i).count .scan := by
            rw [List.take_succ_cons, ← List.singleton_append, List.count_append]
          rw [answers, List.getElem?_cons_succ, ih, tokens_call, hcount]
          simp only [List.getElem?_drop, List.getElem?_cons_succ]

/-! ## The end of the line -/

theorem not_isLineEnd_last (line : String) :
    ∀ c ∈ (ofLine line).rest.getLast?, isLineEnd c = false := by
  intro c hc
  rw [ofLine, List.getLast?_reverse] at hc
  have hhead := List.head?_dropWhile_not isLineEnd line.toList.reverse
  rw [hc] at hhead
  simpa using hhead

/-- However the calls are mixed, a scan gives the next run of the line, one after the other, and
none for ever after the last; the other calls tell what the next scan would give, and take nothing
away. What is given is a token, and the line gets shorter by it. -/
theorem answers_runs (line : String) :
    (∃ ends, line.toList = (ofLine line).rest ++ ends ∧ ∀ c ∈ ends, isLineEnd c = true)
    ∧ (∀ c ∈ (ofLine line).rest.getLast?, isLineEnd c = false)
    ∧ (∃ words, (∀ others, Runs (ofLine line).rest others ↔ others = words)
      ∧ ∀ calls : List Call, (ofLine line).answers calls
        = calls.mapIdx fun i call => call.answer words[(calls.take i).count .scan]?)
    ∧ ∀ scanner : Scanner,
      scanner.call .peek = (.token scanner.scan.1, scanner)
      ∧ scanner.call .exhausted = (.verdict scanner.scan.1.isNone, scanner)
      ∧ ∀ token after, scanner.scan = (some token, after) →
        IsToken token ∧ after.rest.length < scanner.rest.length := by
  refine ⟨exists_lineEnds line, not_isLineEnd_last line,
    ⟨(ofLine line).tokens, fun _ => runs_iff, fun calls => ?_⟩,
    fun scanner => ⟨rfl, rfl, fun token after hscan => ?_⟩⟩
  · refine List.ext_getElem? fun i => ?_
    rw [getElem?_answers, List.getElem?_mapIdx]
  · exact ⟨isToken_of_scan hscan, length_rest_of_scan hscan⟩

/-- A line with returns within it and after it. -/
theorem answers_runs_innerReturn :
    let line := " f0\tlin\r  20 \r\n"
    (ofLine line).answers [.peek, .scan, .scan, .exhausted, .peek, .scan, .exhausted, .scan, .scan]
        = [.token (some "f0"), .token (some "f0"), .token (some "lin\r"), .verdict false,
            .token (some "20"), .token (some "20"), .verdict true, .token none, .token none]
      ∧ (ofLine line).scan = (some "f0", ofLine "\tlin\r  20 ")
      ∧ IsToken "f0" ∧ (ofLine "\tlin\r  20 ").rest.length < (ofLine line).rest.length := by
  intro line
  obtain ⟨-, -, ⟨words, hruns, hanswers⟩, hcalls⟩ := answers_runs line
  have hwords : ["f0", "lin\r", "20"] = words :=
    (hruns _).1 (runs_iff.2 (by decide +kernel))
  have hscan : (ofLine line).scan = (some "f0", ofLine "\tlin\r  20 ") := by decide +kernel
  obtain ⟨-, -, hshortens⟩ := hcalls (ofLine line)
  refine ⟨?_, hscan, hshortens _ _ hscan⟩
  rw [hanswers, ← hwords]
  decide +kernel

end Scanner

end RegisterMachine
