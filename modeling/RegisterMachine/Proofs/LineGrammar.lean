import RegisterMachine.Proofs.OperandSlots

/-!
# The grammar of a source line

What a line of the standard language means, as a relation between its tokens
and its reading. `Statement` divides the tokens into label, mnemonic and
operands; `Meaning` adds what an instruction makes of its operands, or what is
wrong with them, and which of several defects counts.

A meaning forces the reading (`readLine_of_meaning`), and every list of tokens
has a meaning (`exists_meaning`). The two together make an equivalence.
-/

namespace RegisterMachine

/-- How the tokens of a line divide into label, mnemonic and operands. -/
inductive Statement : List String → String → String → List String → Prop
  /-- A mnemonic that no other mnemonic follows starts a line without a label. -/
  | unlabeled {name : String} {operands : List String} (hknown : IsMnemonic name)
      (hnext : ∀ second ∈ operands.head?, ¬ IsMnemonic second) :
      Statement (name :: operands) "" name operands
  | labeled {label name : String} {operands : List String}
      (hmnemonic : IsMnemonic label → IsMnemonic name) :
      Statement (label :: name :: operands) label name operands

/-- What a rejected line goes by. -/
def lineReference (number : Nat) (label : String) : String :=
  if label = "" then Numeral.ofNat number else label

/-- What the line with a given number means. -/
inductive Meaning (number : Nat) : List String → Reading → Prop
  | blank : Meaning number [] .blank
  | labelOnly {label : String} (hunknown : ¬ IsMnemonic label) :
      Meaning number [label] (.labelOnly label)
  | instruction {tokens operands : List String} {label name : String} {operation : Operation}
      (hparts : Statement tokens label name operands) (hnamed : operation.opcode.Named name)
      (hfilled : Filled operation.opcode.kinds operands operation.values) :
      Meaning number tokens (.instruction { label, operation })
  | unknown {tokens operands : List String} {label name : String}
      (hparts : Statement tokens label name operands) (hunknown : ¬ IsMnemonic name) :
      Meaning number tokens (.rejected (.unknownInstruction name) (lineReference number label))
  | defect {tokens operands : List String} {label name : String} {opcode : Opcode} {error : Error}
      (hparts : Statement tokens label name operands) (hnamed : opcode.Named name)
      (hwrong : Defect opcode.mnemonic opcode.kinds operands error) :
      Meaning number tokens (.rejected error (lineReference number label))

namespace Vocabulary

variable {label name : String} {scanner : Scanner}

/-! ## From a meaning to the reading -/

theorem readLine_of_statement (number : Nat) {line : String} {operands : List String}
    (hparts : Statement (Scanner.ofLine line).tokens label name operands) :
    ∃ scanner : Scanner, scanner.tokens = operands ∧
      standard.readLine number line
        = standard.readOperands label name scanner (lineReference number label) := by
  generalize htokens : (Scanner.ofLine line).tokens = tokens at hparts
  cases hparts with
  | unlabeled hknown hnext =>
      obtain ⟨after, hscan, hafter⟩ := Scanner.scan_of_tokens_cons htokens
      refine ⟨after, hafter, ?_⟩
      have hstarts : standard.startsUnlabeled name after.peek = true := by
        rw [startsUnlabeled, contains_standard_iff.2 hknown, Scanner.peek_eq_head?, hafter]
        cases operands with
        | nil => rfl
        | cons second rest =>
            have hsecond : ¬ standard.contains second = true := fun h =>
              hnext second rfl (contains_standard_iff.1 h)
            rw [List.head?_cons, Option.any_some, Bool.eq_false_iff.2 hsecond]
            rfl
      rw [readLine, hscan]
      simp only [hstarts, if_true]
      rfl
  | labeled hmnemonic =>
      have hmem : label ∈ (Scanner.ofLine line).tokens := htokens ▸ List.mem_cons_self
      have hlabel : label ≠ "" := Scanner.ne_empty_of_mem_tokens hmem
      obtain ⟨afterLabel, hscan, hafter⟩ := Scanner.scan_of_tokens_cons htokens
      obtain ⟨afterName, hscanName, hoperands⟩ := Scanner.scan_of_tokens_cons hafter
      refine ⟨afterName, hoperands, ?_⟩
      have hstarts : standard.startsUnlabeled label afterLabel.peek = false := by
        rw [startsUnlabeled, Scanner.peek_eq_head?, hafter, List.head?_cons, Option.any_some]
        by_cases hknown : IsMnemonic label
        · rw [contains_standard_iff.2 (hmnemonic hknown)]
          exact Bool.and_false _
        · rw [Bool.eq_false_iff.2 fun h => hknown (contains_standard_iff.1 h)]
          rfl
      rw [readLine, hscan]
      simp only [hstarts, hscanName]
      rw [lineReference, if_neg hlabel]
      rfl

/-- What a line means is what it is read as. -/
theorem readLine_of_meaning {number : Nat} {line : String} {reading : Reading}
    (h : Meaning number (Scanner.ofLine line).tokens reading) :
    standard.readLine number line = reading := by
  generalize htokens : (Scanner.ofLine line).tokens = tokens at h
  cases h with
  | blank =>
      obtain ⟨after, hscan⟩ := Scanner.scan_of_tokens_nil htokens
      rw [readLine, hscan]
  | @labelOnly label hunknown =>
      obtain ⟨after, hscan, hafter⟩ := Scanner.scan_of_tokens_cons htokens
      obtain ⟨last, hlast⟩ := Scanner.scan_of_tokens_nil hafter
      have hstarts : standard.startsUnlabeled label after.peek = false := by
        rw [startsUnlabeled, Bool.eq_false_iff.2 fun h => hunknown (contains_standard_iff.1 h)]
        rfl
      rw [readLine, hscan]
      simp only [hstarts, hlast]
      rfl
  | instruction hparts hnamed hfilled =>
      obtain ⟨scanner, rfl, hread⟩ := readLine_of_statement number (htokens ▸ hparts)
      rw [hread, readOperands, decode_of_filled hnamed hfilled]
  | unknown hparts hunknown =>
      obtain ⟨scanner, rfl, hread⟩ := readLine_of_statement number (htokens ▸ hparts)
      rw [hread, readOperands, decode_of_unknown hunknown]
  | defect hparts hnamed hwrong =>
      obtain ⟨scanner, rfl, hread⟩ := readLine_of_statement number (htokens ▸ hparts)
      rw [hread, readOperands, decode_of_defect hnamed hwrong]

/-! ## Every line has a meaning -/

theorem exists_meaning_of_statement (number : Nat) {tokens : List String}
    (hparts : Statement tokens label name scanner.tokens) :
    ∃ reading, Meaning number tokens reading := by
  by_cases hknown : IsMnemonic name
  · obtain ⟨opcode, hnamed⟩ := hknown
    rcases filled_or_defect opcode.mnemonic opcode.kinds scanner.tokens with
      ⟨values, hfilled⟩ | ⟨error, hwrong⟩
    · have hcursor : (Operands.mk scanner opcode.mnemonic).scanner.tokens
          = scanner.tokens ++ [] := (List.append_nil _).symm
      obtain ⟨left, hslots, -, -⟩ := Decoder.slots_of_filled hfilled hcursor
      obtain ⟨operation, rfl, rfl, -⟩ := Decoder.exists_operation_of_slots hslots
      exact ⟨_, .instruction hparts hnamed hfilled⟩
    · exact ⟨_, .defect hparts hnamed hwrong⟩
  · exact ⟨_, .unknown hparts hknown⟩

theorem exists_meaning (number : Nat) (scanner : Scanner) :
    ∃ reading, Meaning number scanner.tokens reading := by
  cases htokens : scanner.tokens with
  | nil => exact ⟨_, .blank⟩
  | cons first rest =>
      obtain ⟨afterFirst, -, rfl⟩ := Scanner.scan_of_tokens_cons htokens
      by_cases hstarts : IsMnemonic first ∧ ∀ second ∈ afterFirst.tokens.head?, ¬ IsMnemonic second
      · exact exists_meaning_of_statement number (.unlabeled hstarts.1 hstarts.2)
      -- A first token that does not start the line is a label, whatever follows.
      · cases hrest : afterFirst.tokens with
        | nil =>
            rw [hrest] at hstarts
            refine ⟨_, .labelOnly fun hknown => hstarts ⟨hknown, ?_⟩⟩
            intro second hsecond
            cases hsecond
        | cons name operands =>
            rw [hrest] at hstarts
            obtain ⟨afterName, -, rfl⟩ := Scanner.scan_of_tokens_cons hrest
            refine exists_meaning_of_statement number (.labeled fun hknown => ?_)
            refine Classical.byContradiction fun hunknown => hstarts ⟨hknown, ?_⟩
            intro second hsecond
            cases hsecond
            exact hunknown

/-- The reader accepts the grammar and nothing else: what a line is read as is what its tokens
mean. A meaning is unique, and every line has one. -/
theorem readLine_eq_iff_meaning (number : Nat) (line : String) (reading : Reading) :
    standard.readLine number line = reading
      ↔ Meaning number (Scanner.ofLine line).tokens reading := by
  constructor
  · intro h
    obtain ⟨meant, hmeaning⟩ := exists_meaning number (Scanner.ofLine line)
    rw [← h, readLine_of_meaning hmeaning]
    exact hmeaning
  · exact readLine_of_meaning

end Vocabulary

end RegisterMachine
