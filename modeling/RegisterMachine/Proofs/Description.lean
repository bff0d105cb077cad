import RegisterMachine.Proofs.RoundTrip

/-!
# Reading the description of an instruction that was read

An instruction that comes from a line can be printed and read again, but not
always with the same result. Its label and its target are tokens, and a token
may have carriage returns in it, and at its end too where a separator stood
behind it on the line. Printed, nothing stands behind the last token, so that
such an end counts as the end of the line and is taken off.

Only a branch has a last token that can end like that, since the others end in
a numeral. So all but the branches with such a target are read as they were; and
of those, what remains is read as the target, if anything remains. The argument
is a computation of the tokens: those of the words before the last one, which
nothing happens to, and what is left of the last.
-/

namespace RegisterMachine

/-! ## Tokens of a line -/

namespace Scanner

theorem not_separator_of_mem_splitOnP (text : List Char) :
    ∀ piece ∈ text.splitOnP isSeparator, ∀ c ∈ piece, isSeparator c = false := by
  induction text with
  | nil => simp
  | cons d text ih =>
      rw [List.splitOnP_cons_eq_if_modifyHead]
      split
      · intro piece hpiece
        rcases List.mem_cons.1 hpiece with rfl | hrest
        · exact nofun
        · exact ih piece hrest
      · next hd =>
          obtain ⟨first, rest, hsplit⟩ :=
            List.exists_cons_of_ne_nil (List.splitOnP_ne_nil isSeparator text)
          rw [hsplit] at ih ⊢
          rw [List.modifyHead_cons]
          intro piece hpiece
          rcases List.mem_cons.1 hpiece with rfl | hrest
          · intro c hc
            rcases List.mem_cons.1 hc with rfl | hfirst
            · exact Bool.eq_false_iff.2 hd
            · exact ih first List.mem_cons_self c hfirst
          · exact ih piece (List.mem_cons_of_mem _ hrest)

theorem isToken_of_mem_tokens {scanner : Scanner} {token : String} (h : token ∈ scanner.tokens) :
    IsToken token := by
  refine ⟨ne_empty_of_mem_tokens h, ?_⟩
  obtain ⟨piece, hpiece, rfl⟩ := List.mem_map.1 h
  rw [String.toList_ofList]
  exact not_separator_of_mem_splitOnP _ piece (List.mem_filter.1 hpiece).1

/-- The end of a line is looked for behind its last separator. -/
theorem rest_ofLine_append (front last : String) :
    (ofLine (front ++ " " ++ last)).rest = front.toList ++ ' ' :: (ofLine last).rest := by
  have hspace : (' ' :: front.toList.reverse).dropWhile isLineEnd = ' ' :: front.toList.reverse :=
    List.dropWhile_cons_of_neg (by decide)
  have hreverse : (front ++ " " ++ last).toList.reverse
      = last.toList.reverse ++ ' ' :: front.toList.reverse := by
    simp [String.toList_append]
  have hdrop : (last.toList.reverse ++ ' ' :: front.toList.reverse).dropWhile isLineEnd
      = last.toList.reverse.dropWhile isLineEnd ++ ' ' :: front.toList.reverse := by
    rw [List.dropWhile_append, hspace]
    split
    · next hempty => rw [List.isEmpty_iff.1 hempty, List.nil_append]
    · rfl
  rw [ofLine, ofLine, hreverse, hdrop, List.reverse_append, List.reverse_cons,
    List.reverse_reverse, List.append_assoc, List.singleton_append]

/-- Words before the last come out as they are, and of the last what is left without a line end. -/
theorem tokens_ofLine_concat {front : List String} (hne : front ≠ [])
    (hfront : ∀ word ∈ front, IsToken word) (last : String) :
    (ofLine (" ".intercalate (front ++ [last]))).tokens = front ++ (ofLine last).tokens := by
  have hline : " ".intercalate (front ++ [last]) = " ".intercalate front ++ " " ++ last := by
    rw [String.intercalate_append_of_ne_nil hne (List.cons_ne_nil _ _),
      String.intercalate_singleton]
  have hrest := rest_ofLine_append (" ".intercalate front) last
  rw [← hline] at hrest
  calc (ofLine (" ".intercalate (front ++ [last]))).tokens
    _ = tokens ⟨(" ".intercalate front).toList ++ ' ' :: (ofLine last).rest⟩ := by rw [← hrest]
    _ = front ++ (ofLine last).tokens := by
        rw [tokens_append_separator _ _ rfl, tokens_unwords front hfront]

/-- What is left of a text at the end of a line. -/
def withoutLineEnd (text : String) : String :=
  String.ofList (ofLine text).rest

theorem withoutLineEnd_of_isWord {text : String} (h : IsWord text) :
    withoutLineEnd text = text := by
  rw [withoutLineEnd, ofLine_of_no_lineEnd fun c hc => (h.2 c hc).2, String.ofList_toList]

theorem tokens_ofLine_of_isToken {text : String} (h : IsToken text) :
    (ofLine text).tokens = if withoutLineEnd text = "" then [] else [withoutLineEnd text] := by
  have hrest : (ofLine text).tokens = tokens ⟨(withoutLineEnd text).toList⟩ := by
    rw [withoutLineEnd, String.toList_ofList]
  have hsubset : ∀ c ∈ (withoutLineEnd text).toList, c ∈ text.toList := by
    intro c hc
    rw [withoutLineEnd, String.toList_ofList, ofLine, List.mem_reverse] at hc
    exact List.mem_reverse.1 ((List.dropWhile_sublist isLineEnd).subset hc)
  rw [hrest]
  split
  · next hempty =>
      rw [hempty]
      rfl
  · next hfull => exact tokens_of_isToken ⟨hfull, fun c hc => h.2 c (hsubset c hc)⟩

end Scanner

theorem Statement.label_mem {tokens operands : List String} {label name : String}
    (h : Statement tokens label name operands) (hlabel : label ≠ "") : label ∈ tokens := by
  cases h with
  | unlabeled => exact absurd rfl hlabel
  | labeled => exact List.mem_cons_self

theorem Statement.operands_subset {tokens operands : List String} {label name : String}
    (h : Statement tokens label name operands) : operands ⊆ tokens := by
  cases h with
  | unlabeled => exact List.subset_cons_self _ _
  | labeled => exact List.subset_cons_of_subset _ (List.subset_cons_self _ _)

theorem Filled.target_mem {operands : List String} {operation : Operation}
    (h : Filled operation.opcode.kinds operands operation.values) {register : UInt64}
    {target : String} (hbranch : operation = .branch register target) : target ∈ operands := by
  subst hbranch
  cases h with
  | cons _ hrest =>
      cases hrest with
      | cons hfits _ =>
          cases hfits
          exact List.mem_cons_of_mem _ List.mem_cons_self

/-! ## What was read -/

/-- What is known of an instruction that comes from a line. -/
structure Instruction.Scanned (instruction : Instruction) : Prop where
  label : instruction.label ≠ "" → IsToken instruction.label
  target : ∀ register target, instruction.operation = .branch register target → IsToken target

/-! ## The tokens of a description -/

namespace Instruction

variable {instruction : Instruction}

theorem Scanned.isToken_of_mem_words (h : instruction.Scanned) :
    ∀ word ∈ instruction.words, IsToken word :=
  forall_mem_words (fun _ hword => hword.isToken) h.label h.target

/-- The words on the line of an instruction before the last one. -/
def front (instruction : Instruction) : List String :=
  (if instruction.label = "" then [] else [instruction.label])
    ++ instruction.operation.opcode.mnemonic :: instruction.operation.operands.dropLast

theorem words_eq_concat {last : String}
    (h : instruction.operation.operands.getLast? = some last) :
    instruction.words = instruction.front ++ [last] := by
  obtain ⟨before, hoperands⟩ := List.getLast?_eq_some_iff.1 h
  rw [words, front, hoperands, List.dropLast_concat, List.append_assoc, List.cons_append]

/-- Only a branch may end in something that is no word. -/
theorem getLast?_operands (instruction : Instruction) :
    ∃ last, instruction.operation.operands.getLast? = some last
      ∧ (IsWord last ∨ ∃ register, instruction.operation = .branch register last) := by
  cases instruction.operation with
  | load register value => exact ⟨_, rfl, .inl (isWord_ofInt _)⟩
  | arith op result op1 op2 => exact ⟨_, rfl, .inl (isWord_ofNat _)⟩
  | print register => exact ⟨_, rfl, .inl (isWord_ofNat _)⟩
  | branch register target => exact ⟨_, rfl, .inr ⟨register, rfl⟩⟩

theorem Scanned.tokens_sourceLine (h : instruction.Scanned) {last : String}
    (hlast : instruction.operation.operands.getLast? = some last) :
    (Scanner.ofLine instruction.sourceLine).tokens
      = instruction.front
        ++ if Scanner.withoutLineEnd last = "" then [] else [Scanner.withoutLineEnd last] := by
  have hmem := h.isToken_of_mem_words
  have hne : instruction.front ≠ [] := by simp [front]
  rw [words_eq_concat hlast] at hmem
  rw [sourceLine_eq_unwords, words_eq_concat hlast,
    Scanner.tokens_ofLine_concat hne fun word hword => hmem word (List.mem_append_left _ hword),
    Scanner.tokens_ofLine_of_isToken (hmem last (List.mem_append_right _ List.mem_cons_self))]

/-- With nothing to be taken off its end, the description is read as the instruction. -/
theorem Scanned.readLine_of_kept (h : instruction.Scanned) {last : String}
    (hlast : instruction.operation.operands.getLast? = some last)
    (hkept : Scanner.withoutLineEnd last = last) (number : Nat) :
    Vocabulary.standard.readLine number instruction.sourceLine = .instruction instruction := by
  have htoken : IsToken last := by
    refine h.isToken_of_mem_words last ?_
    rw [words_eq_concat hlast]
    exact List.mem_append_right _ List.mem_cons_self
  refine readLine_of_words ?_
  rw [h.tokens_sourceLine hlast, hkept, if_neg htoken.1, words_eq_concat hlast]

/-- A branch is read with what is left of its target, unless nothing is. -/
theorem Scanned.readLine_branch (h : instruction.Scanned) {register : UInt64} {target : String}
    (hbranch : instruction.operation = .branch register target) (number : Nat) :
    Vocabulary.standard.readLine number instruction.sourceLine
      = if Scanner.withoutLineEnd target = "" then
          .rejected (.missingOperand "bnz") (lineReference number instruction.label)
        else .instruction
          { instruction with operation := .branch register (Scanner.withoutLineEnd target) } := by
  have hlast : instruction.operation.operands.getLast? = some target := by
    rw [hbranch]
    rfl
  have htokens := h.tokens_sourceLine hlast
  have hfront : instruction.front = (if instruction.label = "" then [] else [instruction.label])
      ++ [Opcode.bnz.mnemonic, Numeral.ofNat register.toNat] := by
    rw [front, hbranch]
    rfl
  rw [hfront] at htokens
  split
  · next hempty =>
      rw [if_pos hempty, List.append_nil] at htokens
      refine Vocabulary.readLine_of_meaning ?_
      rw [htokens]
      have hfilled : Filled [.register] [Numeral.ofNat register.toNat] [.register register] :=
        .cons (OperandKind.read_register_ofNat register) .nil
      exact .defect (statement_of_numeral _ .bnz rfl) (Vocabulary.named_mnemonic .bnz)
        (.missing hfilled)
  · next hfull =>
      rw [if_neg hfull] at htokens
      refine readLine_of_words ?_
      rw [htokens, words, List.append_assoc]
      rfl

end Instruction

namespace Vocabulary

theorem scanned_of_readLine {number : Nat} {line : String} {made : Instruction}
    (h : standard.readLine number line = .instruction made) : made.Scanned := by
  obtain ⟨reading, hmeaning⟩ := exists_meaning number (Scanner.ofLine line)
  rw [readLine_of_meaning hmeaning] at h
  subst h
  generalize htokens : (Scanner.ofLine line).tokens = tokens at hmeaning
  cases hmeaning with
  | instruction hparts hnamed hfilled =>
      refine ⟨fun hlabel => ?_, fun register target hbranch => ?_⟩
      · exact Scanner.isToken_of_mem_tokens (htokens ▸ hparts.label_mem hlabel)
      · exact Scanner.isToken_of_mem_tokens
          (htokens ▸ hparts.operands_subset (hfilled.target_mem hbranch))

/-- An instruction that was read is read again from its description, unless it is a branch whose
target ends like a line. Such a branch is read with what is left of its target, and rejected if
nothing is left. -/
theorem readLine_description_iff {number : Nat} {line : String} {made : Instruction}
    (h : standard.readLine number line = .instruction made) (again : Nat) :
    (standard.readLine again made.sourceLine = .instruction made
        ↔ ∀ register target, made.operation = .branch register target →
          Scanner.withoutLineEnd target = target)
      ∧ ∀ register target, made.operation = .branch register target →
        standard.readLine again made.sourceLine
          = if Scanner.withoutLineEnd target = "" then
              .rejected (.missingOperand "bnz") (lineReference again made.label)
            else .instruction
              { made with operation := .branch register (Scanner.withoutLineEnd target) } := by
  have hscanned := scanned_of_readLine h
  refine ⟨⟨fun hread register target hbranch => ?_, fun hkept => ?_⟩,
    fun register target hbranch => hscanned.readLine_branch hbranch again⟩
  · rw [hscanned.readLine_branch hbranch] at hread
    split at hread
    · cases hread
    · have hoperation := congrArg Instruction.operation (Reading.instruction.inj hread)
      rw [hbranch] at hoperation
      injection hoperation
  · obtain ⟨last, hlast, hword | ⟨register, hbranch⟩⟩ := made.getLast?_operands
    · exact hscanned.readLine_of_kept hlast (Scanner.withoutLineEnd_of_isWord hword) again
    · exact hscanned.readLine_of_kept hlast (hkept register last hbranch) again

/-- A label spelled like a mnemonic, and a target with a carriage return before its last
character. -/
theorem readLine_description_iff_innerReturn :
    standard.readLine 3 "out\tbnz +01  a\r: \r\n" = .instruction ⟨"out", .branch 1 "a\r:"⟩
      ∧ standard.readLine 8 "out bnz 1 a\r:" = .instruction ⟨"out", .branch 1 "a\r:"⟩ := by
  have hread : standard.readLine 3 "out\tbnz +01  a\r: \r\n"
      = .instruction ⟨"out", .branch 1 "a\r:"⟩ := by decide +kernel
  refine ⟨hread, (readLine_description_iff hread 8).1.2 fun register target hbranch => ?_⟩
  obtain ⟨-, rfl⟩ := Operation.branch.inj hbranch
  decide

/-- A target that ends in a carriage return, which a space keeps from ending the line, and which
nothing keeps from it in the description. -/
theorem readLine_description_ne :
    standard.readLine 1 "bnz 1 a\r " = .instruction ⟨"", .branch 1 "a\r"⟩
      ∧ Instruction.sourceLine ⟨"", .branch 1 "a\r"⟩ = "bnz 1 a\r"
      ∧ standard.readLine 1 "bnz 1 a\r" = .instruction ⟨"", .branch 1 "a"⟩ := by
  decide +kernel

end Vocabulary

end RegisterMachine
