import RegisterMachine.Proofs.LineGrammar
import RegisterMachine.Proofs.Settling
import RegisterMachine.Proofs.SourceText

/-!
# Printing a program and assembling it again

The description of an instruction is its source line, but for the colon after
the label. So a program can be printed, and assembling what was printed gives it
back. What has to be asked of it is little: that its labels are words, since a
label that is no word would not come out as one token, and that they differ,
since it would not be a program otherwise.

The way back goes through the grammar. A printed line has the words of the
instruction as its tokens, the words form a statement, and the operands fill the
slots, because reading a numeral undoes writing it. That the line divides into
label and mnemonic as it was written needs one more thing: the first operand is
a numeral and so no mnemonic, whatever the label is.
-/

namespace RegisterMachine

/-- A text that comes out as one token: there is something in it, and nothing that separates tokens
or ends a line. -/
def IsWord (text : String) : Prop :=
  text ≠ "" ∧ ∀ c ∈ text.toList, isSeparator c = false ∧ isLineEnd c = false

instance (text : String) : Decidable (IsWord text) :=
  have : Decidable (∀ c ∈ text.toList, isSeparator c = false ∧ isLineEnd c = false) :=
    List.decidableBAll _ _
  instDecidableAnd

/-- A text that comes out as one token between separators. A line may end within it. -/
def IsToken (text : String) : Prop :=
  text ≠ "" ∧ ∀ c ∈ text.toList, isSeparator c = false

theorem IsWord.isToken {text : String} (h : IsWord text) : IsToken text :=
  ⟨h.1, fun c hc => (h.2 c hc).1⟩

/-! ## Lines of words -/

theorem mem_toList_unwords {words : List String} {c : Char}
    (h : c ∈ (" ".intercalate words).toList) : c = ' ' ∨ ∃ word ∈ words, c ∈ word.toList := by
  induction words with
  | nil => cases h
  | cons word words ih =>
      cases words with
      | nil =>
          rw [String.intercalate_singleton] at h
          exact .inr ⟨word, List.mem_cons_self, h⟩
      | cons next words =>
          rw [String.intercalate_cons_cons, String.toList_append, String.toList_append,
            List.mem_append, List.mem_append] at h
          rcases h with (hword | hspace) | hrest
          · exact .inr ⟨word, List.mem_cons_self, hword⟩
          · exact .inl (List.mem_singleton.1 hspace)
          · rcases ih hrest with hspace | ⟨other, hother, hc⟩
            · exact .inl hspace
            · exact .inr ⟨other, List.mem_cons_of_mem _ hother, hc⟩

theorem isLineEnd_of_mem_unwords {words : List String} (hclean : ∀ word ∈ words, IsWord word)
    {c : Char} (h : c ∈ (" ".intercalate words).toList) : isLineEnd c = false := by
  rcases mem_toList_unwords h with rfl | ⟨word, hword, hc⟩
  · rfl
  · exact ((hclean word hword).2 c hc).2

namespace Scanner

theorem ofLine_of_no_lineEnd {line : String} (h : ∀ c ∈ line.toList, isLineEnd c = false) :
    ofLine line = ⟨line.toList⟩ := by
  rw [ofLine]
  have hkeep : line.toList.reverse.dropWhile isLineEnd = line.toList.reverse := by
    cases hrev : line.toList.reverse with
    | nil => rfl
    | cons c rest =>
        have hc : c ∈ line.toList := List.mem_reverse.1 (hrev ▸ List.mem_cons_self)
        rw [List.dropWhile_cons_of_neg (by rw [h c hc]; exact Bool.false_ne_true)]
  rw [hkeep, List.reverse_reverse]

theorem tokens_append_separator (front rest : List Char) {c : Char} (h : isSeparator c = true) :
    tokens ⟨front ++ c :: rest⟩ = tokens ⟨front⟩ ++ tokens ⟨rest⟩ := by
  rw [tokens, tokens, tokens, List.splitOnP_append_cons front rest h, List.filter_append,
    List.map_append]

theorem tokens_of_isToken {text : String} (h : IsToken text) : tokens ⟨text.toList⟩ = [text] := by
  have hfull : text.toList ≠ [] := fun hempty => h.1 (String.toList_eq_nil_iff.1 hempty)
  have hsplit : tokens ⟨text.toList ++ []⟩ = String.ofList text.toList :: tokens ⟨[]⟩ :=
    tokens_append hfull h.2 nofun
  rw [List.append_nil, String.ofList_toList] at hsplit
  exact hsplit

theorem tokens_unwords (words : List String) :
    (∀ word ∈ words, IsToken word) → tokens ⟨(" ".intercalate words).toList⟩ = words := by
  induction words with
  | nil => intro _; rfl
  | cons word words ih =>
      intro hclean
      have hword := tokens_of_isToken (hclean word List.mem_cons_self)
      cases words with
      | nil => rw [String.intercalate_singleton, hword]
      | cons next words =>
          rw [String.intercalate_cons_cons, String.toList_append, String.toList_append,
            List.append_assoc]
          show tokens ⟨word.toList ++ ' ' :: (" ".intercalate (next :: words)).toList⟩ = _
          rw [tokens_append_separator _ _ rfl, hword,
            ih fun other hother => hclean other (List.mem_cons_of_mem _ hother)]
          rfl

theorem tokens_ofLine_unwords {words : List String} (hclean : ∀ word ∈ words, IsWord word) :
    (ofLine (" ".intercalate words)).tokens = words := by
  rw [ofLine_of_no_lineEnd fun c hc => isLineEnd_of_mem_unwords hclean hc]
  exact tokens_unwords words fun word hword => (hclean word hword).isToken

end Scanner

/-! ## The source line of an instruction -/

/-- What has to be asked of an instruction so that its line can be read again. -/
structure Instruction.Printable (instruction : Instruction) : Prop where
  label : instruction.label ≠ "" → IsWord instruction.label
  target : ∀ register target, instruction.operation = .branch register target → IsWord target

namespace Instruction

/-- The description without the colon that stands after the label. -/
def sourceLine (instruction : Instruction) : String :=
  if instruction.label = "" then instruction.description
  else String.ofList (instruction.description.toList.eraseIdx instruction.label.length)

/-- The words on the line of an instruction. -/
def words (instruction : Instruction) : List String :=
  (if instruction.label = "" then [] else [instruction.label])
    ++ instruction.operation.opcode.mnemonic :: instruction.operation.operands

theorem join_eq_unwords (words : List String) :
    ∀ word : String,
      word ++ String.join (words.map (" " ++ ·)) = " ".intercalate (word :: words) := by
  induction words with
  | nil =>
      intro word
      rw [List.map_nil, String.join_nil, String.append_empty, String.intercalate_singleton]
  | cons next words ih =>
      intro word
      rw [List.map_cons, String.join_cons, String.append_assoc, ih, String.intercalate_cons_cons,
        String.append_assoc]

theorem sourceLine_eq_unwords (instruction : Instruction) :
    instruction.sourceLine = " ".intercalate instruction.words := by
  have htext : instruction.operation.text
      = " ".intercalate (instruction.operation.opcode.mnemonic
          :: instruction.operation.operands) := join_eq_unwords _ _
  rw [sourceLine, words, description]
  split
  · exact htext
  · next hlabel =>
      have herase : (instruction.label ++ ": " ++ instruction.operation.text).toList.eraseIdx
          instruction.label.length
            = (instruction.label ++ " " ++ instruction.operation.text).toList := by
        simp only [String.toList_append]
        rw [← String.length_toList, List.append_assoc,
          List.eraseIdx_append_of_length_le (Nat.le_refl _), Nat.sub_self, List.append_assoc]
        rfl
      rw [herase, String.ofList_toList, htext]
      exact (String.intercalate_cons_cons).symm

end Instruction

/-! ## The words of a printed line -/

theorem isWord_of_forall_digit {text : String} (hne : text ≠ "")
    (h : ∀ c ∈ text.toList, c.isDigit = true ∨ c = '-') : IsWord text := by
  refine ⟨hne, fun c hc => ?_⟩
  rcases h c hc with hdigit | rfl
  · constructor
    · refine Bool.eq_false_iff.2 fun hsep => ?_
      rw [isSeparator, Bool.or_eq_true, beq_iff_eq, beq_iff_eq] at hsep
      rcases hsep with rfl | rfl <;> cases hdigit
    · refine Bool.eq_false_iff.2 fun hend => ?_
      rw [isLineEnd, Bool.or_eq_true, beq_iff_eq, beq_iff_eq] at hend
      rcases hend with rfl | rfl <;> cases hdigit
  · exact ⟨rfl, rfl⟩

theorem isWord_ofNat (n : Nat) : IsWord (Numeral.ofNat n) := by
  refine isWord_of_forall_digit ?_ fun c hc => .inl (Numeral.isDigit_of_mem_ofNat hc)
  obtain ⟨c, rest, h, -⟩ := Numeral.ofNat_eq_digit_cons n
  intro hempty
  rw [hempty] at h
  cases h

theorem isWord_ofInt (v : Int) : IsWord (Numeral.ofInt v) := by
  cases v with
  | ofNat n => exact isWord_ofNat n
  | negSucc n =>
      refine isWord_of_forall_digit ?_ fun c hc => ?_
      · rw [Numeral.ofInt]
        intro h
        have hlist := congrArg String.toList h
        rw [String.toList_append] at hlist
        cases hlist
      · rw [Numeral.ofInt, String.toList_append, List.mem_append] at hc
        rcases hc with hminus | hdigit
        · exact .inr (List.mem_singleton.1 hminus)
        · exact .inl (Numeral.isDigit_of_mem_ofNat hdigit)

theorem isWord_mnemonic (opcode : Opcode) : IsWord opcode.mnemonic := by
  have hclean : ∀ o ∈ Opcode.all, IsWord o.mnemonic := by decide
  exact hclean opcode opcode.mem_all

theorem toLower_of_isDigit {c : Char} (h : c.isDigit = true) : c.toLower = c := by
  rw [Char.isDigit, Bool.and_eq_true, decide_eq_true_eq, decide_eq_true_eq] at h
  have hsmall : c.val.toNat ≤ 57 := h.2
  refine dif_neg ?_
  rintro ⟨hbig, -⟩
  have : 65 ≤ c.val.toNat := hbig
  omega

/-- A numeral is no mnemonic: lowering a digit leaves it as it is, and no mnemonic has one. -/
theorem not_isMnemonic_ofNat (n : Nat) : ¬ IsMnemonic (Numeral.ofNat n) := by
  rintro ⟨opcode, named⟩
  obtain ⟨c, rest, h, hdigit⟩ := Numeral.ofNat_eq_digit_cons n
  have hletters : ∀ o ∈ Opcode.all, o.mnemonic.toList.all (!·.isDigit) = true := by decide
  have hmem : c ∈ opcode.mnemonic.toList := by
    rw [named, Vocabulary.normalize, String.toList_map, h, List.map_cons, toLower_of_isDigit hdigit]
    exact List.mem_cons_self
  have hletter := List.all_eq_true.1 (hletters opcode opcode.mem_all) c hmem
  rw [hdigit] at hletter
  cases hletter

namespace Instruction

variable {instruction : Instruction}

/-- Apart from a label and a target there are only words on a line, whatever those two are. -/
theorem forall_mem_words {property : String → Prop} (hword : ∀ word, IsWord word → property word)
    (hlabel : instruction.label ≠ "" → property instruction.label)
    (htarget : ∀ register target, instruction.operation = .branch register target →
      property target) :
    ∀ word ∈ instruction.words, property word := by
  intro word hmem
  rw [words, List.mem_append, List.mem_cons] at hmem
  rcases hmem with hmem | rfl | hoperand
  · split at hmem
    · cases hmem
    · next hne =>
        cases List.mem_singleton.1 hmem
        exact hlabel hne
  · exact hword _ (isWord_mnemonic _)
  · cases hop : instruction.operation with
    | load register value =>
        simp only [hop, Operation.operands, List.mem_cons, List.not_mem_nil, or_false] at hoperand
        rcases hoperand with rfl | rfl
        · exact hword _ (isWord_ofNat _)
        · exact hword _ (isWord_ofInt _)
    | arith op result op1 op2 =>
        simp only [hop, Operation.operands, List.mem_cons, List.not_mem_nil, or_false] at hoperand
        rcases hoperand with rfl | rfl | rfl <;> exact hword _ (isWord_ofNat _)
    | print register =>
        simp only [hop, Operation.operands, List.mem_cons, List.not_mem_nil, or_false] at hoperand
        rw [hoperand]
        exact hword _ (isWord_ofNat _)
    | branch register target =>
        simp only [hop, Operation.operands, List.mem_cons, List.not_mem_nil, or_false] at hoperand
        rcases hoperand with rfl | rfl
        · exact hword _ (isWord_ofNat _)
        · exact htarget register _ hop

theorem Printable.isWord_of_mem_words (hprintable : instruction.Printable) :
    ∀ word ∈ instruction.words, IsWord word :=
  forall_mem_words (fun _ h => h) hprintable.label hprintable.target

end Instruction

theorem OperandKind.read_register_ofNat (register : UInt64) :
    OperandKind.register.read (Numeral.ofNat register.toNat) = .ok (.register register) := by
  rw [read, Numeral.unsigned?_ofNat]

theorem OperandKind.read_integer_ofInt (value : Int64) :
    OperandKind.integer.read (Numeral.ofInt value.toInt) = .ok (.integer value) := by
  rw [read, Numeral.signed?_ofInt]

/-- The operands that an operation is written with fill the slots of its opcode. -/
theorem filled_operands (operation : Operation) :
    Filled operation.opcode.kinds operation.operands operation.values := by
  cases operation with
  | load register value =>
      exact .cons (OperandKind.read_register_ofNat _)
        (.cons (OperandKind.read_integer_ofInt _) .nil)
  | arith op result op1 op2 =>
      exact .cons (OperandKind.read_register_ofNat _)
        (.cons (OperandKind.read_register_ofNat _)
          (.cons (OperandKind.read_register_ofNat _) .nil))
  | print register => exact .cons (OperandKind.read_register_ofNat _) .nil
  | branch register target =>
      exact .cons (OperandKind.read_register_ofNat _) (.cons rfl .nil)

/-- Every operation is written with a numeral first. -/
theorem head?_operands (operation : Operation) :
    ∃ n, operation.operands.head? = some (Numeral.ofNat n) := by
  cases operation <;> exact ⟨_, rfl⟩

/-- Tokens that start with a mnemonic and a numeral, be there a label before them or not, divide as
they were written. -/
theorem statement_of_numeral (label : String) (opcode : Opcode) {operands : List String} {n : Nat}
    (hfirst : operands.head? = some (Numeral.ofNat n)) :
    Statement ((if label = "" then [] else [label]) ++ opcode.mnemonic :: operands) label
      opcode.mnemonic operands := by
  have hknown : IsMnemonic opcode.mnemonic := ⟨_, Vocabulary.named_mnemonic _⟩
  split
  · next hlabel =>
      rw [hlabel]
      refine .unlabeled hknown fun second hsecond => ?_
      rw [hfirst] at hsecond
      cases hsecond
      exact not_isMnemonic_ofNat n
  · exact .labeled fun _ => hknown

theorem statement_words (instruction : Instruction) :
    Statement instruction.words instruction.label instruction.operation.opcode.mnemonic
      instruction.operation.operands := by
  obtain ⟨n, hfirst⟩ := head?_operands instruction.operation
  exact statement_of_numeral _ _ hfirst

theorem readLine_of_words {number : Nat} {line : String} {instruction : Instruction}
    (h : (Scanner.ofLine line).tokens = instruction.words) :
    Vocabulary.standard.readLine number line = .instruction instruction := by
  refine Vocabulary.readLine_of_meaning ?_
  rw [h]
  exact .instruction (statement_words instruction) (Vocabulary.named_mnemonic _)
    (filled_operands instruction.operation)

/-- The line of an instruction is read as that instruction. -/
theorem readLine_sourceLine {instruction : Instruction} (hprintable : instruction.Printable)
    (number : Nat) :
    Vocabulary.standard.readLine number instruction.sourceLine = .instruction instruction := by
  refine readLine_of_words ?_
  rw [Instruction.sourceLine_eq_unwords,
    Scanner.tokens_ofLine_unwords hprintable.isWord_of_mem_words]

/-! ## The source text of a program -/

/-- The lines of instructions, one below the other. -/
def sourceText (instructions : List Instruction) : String :=
  "\n".intercalate (instructions.map Instruction.sourceLine)

theorem not_lineEnd_of_mem_sourceLine {instruction : Instruction}
    (hprintable : instruction.Printable) {c : Char} (h : c ∈ instruction.sourceLine.toList) :
    isLineEnd c = false := by
  rw [Instruction.sourceLine_eq_unwords] at h
  exact isLineEnd_of_mem_unwords hprintable.isWord_of_mem_words h

theorem sourceLine_ne_nil {instruction : Instruction} (hprintable : instruction.Printable) :
    instruction.sourceLine.toList ≠ [] := by
  intro h
  have hread := readLine_sourceLine hprintable 0
  rw [String.toList_eq_nil_iff.1 h] at hread
  cases hread

theorem textLines_sourceText (instructions : List Instruction) :
    (∀ made ∈ instructions, made.Printable) →
      Source.textLines (sourceText instructions).toList
        = instructions.map fun made => made.sourceLine.toList := by
  induction instructions with
  | nil => intro _; rfl
  | cons first rest ih =>
      intro hprintable
      have hfirst := hprintable first List.mem_cons_self
      have hfeed : '\n' ∉ first.sourceLine.toList := fun h =>
        Bool.false_ne_true (not_lineEnd_of_mem_sourceLine hfirst h).symm
      cases rest with
      | nil =>
          rw [sourceText, List.map_singleton, String.intercalate_singleton,
            Source.textLines_of_not_mem hfeed, if_neg (sourceLine_ne_nil hfirst)]
          rfl
      | cons second rest =>
          have hreturn : '\r' ∉ first.sourceLine.toList := fun h =>
            Bool.false_ne_true (not_lineEnd_of_mem_sourceLine hfirst h).symm
          have hcut : (sourceText (first :: second :: rest)).toList
              = first.sourceLine.toList ++ '\n' :: (sourceText (second :: rest)).toList := by
            rw [sourceText, List.map_cons, List.map_cons, String.intercalate_cons_cons,
              String.toList_append, String.toList_append, List.append_assoc]
            rfl
          rw [hcut, Source.textLines_append hfeed, Source.cutReturn_of_not_mem hreturn,
            ih fun made hmade => hprintable made (List.mem_cons_of_mem _ hmade)]
          rfl

theorem lines_sourceText (instructions : List Instruction)
    (hprintable : ∀ made ∈ instructions, made.Printable) :
    (Source.ofText (sourceText instructions)).lines = instructions.map Instruction.sourceLine := by
  rw [Source.lines_ofText, textLines_sourceText instructions hprintable, List.map_map]
  exact List.map_congr_left fun made _ => String.ofList_toList

/-- Printing a program and assembling what was printed gives the program back, and nothing is
reported on the way: the instructions are those that were printed, and the labels are bound as
pushing the instructions binds them. -/
theorem assemble_sourceText (instructions : List Instruction)
    (hprintable : ∀ made ∈ instructions, made.Printable)
    (hdistinct : instructions.Pairwise fun a b => a.label ≠ "" → a.label ≠ b.label)
    (workspace : Workspace) :
    ∃ program, Program.empty.pushAll instructions = .ok program
      ∧ Vocabulary.standard.assemble (.ofText (sourceText instructions)) workspace
        = ({ workspace with program },
            .ok { instructions := instructions.length, rejected := 0 }) := by
  have hfree : ∀ made ∈ instructions, ¬ Taken Program.empty.labels.names made.label :=
    fun made _ htaken => List.not_mem_nil htaken.2
  obtain ⟨program, hpush⟩ := Program.exists_pushAll hfree hdistinct
  refine ⟨program, hpush, ?_⟩
  refine Vocabulary.assemble_of_instructions (Source.fault?_ofText _) ?_ hpush workspace
  rw [lines_sourceText instructions hprintable, List.map_map]
  refine List.map_congr_left fun made hmade => ?_
  rw [Function.comp_apply]
  exact readLine_sourceLine (hprintable made hmade) 1

/-- Labels and a target that are spelled like mnemonics, and the words at both ends of their
range. -/
def mnemonicLabels : List Instruction :=
  [{ label := "out", operation := .print 1 },
    { label := "x", operation := .branch 1 "add" },
    { label := "", operation := .load 18446744073709551615 (-9223372036854775808) }]

theorem assemble_sourceText_mnemonicLabels :
    (∀ made ∈ mnemonicLabels, made.Printable)
      ∧ mnemonicLabels.Pairwise (fun a b => a.label ≠ "" → a.label ≠ b.label)
      ∧ sourceText mnemonicLabels
        = "out out 1\nx bnz 1 add\nlin 18446744073709551615 -9223372036854775808"
      ∧ ∃ program, Program.empty.pushAll mnemonicLabels = .ok program
        ∧ Vocabulary.standard.assemble (.ofText (sourceText mnemonicLabels)) {}
          = ({ program }, .ok { instructions := 3, rejected := 0 }) := by
  have hprintable : ∀ made ∈ mnemonicLabels, made.Printable := by
    intro made hmade
    simp only [mnemonicLabels, List.mem_cons, List.not_mem_nil, or_false] at hmade
    rcases hmade with rfl | rfl | rfl
    · exact ⟨fun _ => by decide, nofun⟩
    · refine ⟨fun _ => by decide, fun register target h => ?_⟩
      cases h
      decide
    · exact ⟨fun h => absurd rfl h, nofun⟩
  have hdistinct : mnemonicLabels.Pairwise (fun a b => a.label ≠ "" → a.label ≠ b.label) := by
    decide
  exact ⟨hprintable, hdistinct, by decide,
    assemble_sourceText mnemonicLabels hprintable hdistinct {}⟩

end RegisterMachine
