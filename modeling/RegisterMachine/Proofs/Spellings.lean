import RegisterMachine.Proofs.Description
import Mathlib.Data.List.Basic
import Mathlib.Data.List.TakeWhile

/-!
# Spellings that stand for the same mnemonic

A mnemonic may be written in any case, and an alias may be written for it. On a
line where one spelling is the mnemonic, any other may stand in its place: the
line is divided as before, and it is read as before, whether an instruction comes
of it or a complaint. A complaint about the operands names the mnemonic as it was
entered in the vocabulary, and one about the line gives its label or number, so
neither tells the spelling.

Which token is the mnemonic depends on whether the first and the second are
known, and a spelling that stands for the same is known as well. What is left to
see is that the exchange touches nothing else. It is made in the line itself and
not in its tokens, because a format sees all that comes after the mnemonic as it
was written. A line with a token left out is a `Gap`, and scanning goes through
it in the same way for every word that is put in (`Gap.scan_front`).
-/

namespace RegisterMachine

theorem IsToken.exists_cons {token : String} (h : IsToken token) :
    ∃ c rest, token.toList = c :: rest :=
  List.exists_cons_of_ne_nil fun hempty => h.1 (String.toList_eq_nil_iff.1 hempty)

namespace Scanner

variable {text front tail : List Char} {token : String} {scanner after : Scanner}

/-! ## Going over a token -/

theorem isToken_of_scan (h : scanner.scan = (some token, after)) : IsToken token := by
  have hmem : token ∈ scanner.tokens := by
    rw [tokens_eq_scan, h]
    exact List.mem_cons_self
  exact isToken_of_mem_tokens hmem

/-- What a scan goes over: separators, the token, and then another separator or the end. -/
theorem exists_of_scan (h : scanner.scan = (some token, after)) :
    ∃ blanks, scanner.rest = blanks ++ (token.toList ++ after.rest)
      ∧ (∀ c ∈ blanks, isSeparator c = true) ∧ ∀ c ∈ after.rest.head?, isSeparator c = true := by
  have hsplit := (List.takeWhile_append_dropWhile (p := isSeparator) (l := scanner.rest)).symm
  rw [scan] at h
  split at h
  · cases h
  · next c rest hrest =>
      cases h
      refine ⟨scanner.rest.takeWhile isSeparator, ?_, fun c hc => ?_, isSeparator_head_dropWhile _⟩
      · rw [String.toList_ofList, List.takeWhile_append_dropWhile, ← hrest]
        exact hsplit
      · exact List.all_eq_true.1 List.all_takeWhile c hc

theorem scan_of_token (hfront : ∀ c ∈ front, isSeparator c = true) (htoken : IsToken token)
    (htail : ∀ c ∈ tail.head?, isSeparator c = true) :
    scan ⟨front ++ (token.toList ++ tail)⟩ = (some token, ⟨tail⟩) := by
  obtain ⟨c, word, hword⟩ := htoken.exists_cons
  have hc : isSeparator c = false := htoken.2 c (hword ▸ List.mem_cons_self)
  have hinside : ∀ d ∈ token.toList, (!isSeparator d) = true := fun d hd => by
    rw [htoken.2 d hd]
    rfl
  have hstop : tail.takeWhile (!isSeparator ·) = [] ∧ tail.dropWhile (!isSeparator ·) = tail := by
    cases tail with
    | nil => exact ⟨rfl, rfl⟩
    | cons d tail =>
        have hd : ¬ (!isSeparator d) = true := by
          rw [htail d rfl]
          exact Bool.false_ne_true
        exact ⟨List.takeWhile_cons_of_neg hd, List.dropWhile_cons_of_neg hd⟩
  have hdrop : (front ++ (token.toList ++ tail)).dropWhile isSeparator = c :: (word ++ tail) := by
    rw [List.dropWhile_append_of_pos hfront, hword, List.cons_append,
      List.dropWhile_cons_of_neg (by rw [hc]; exact Bool.false_ne_true)]
  rw [scan, hdrop]
  show (some (String.ofList ((c :: word ++ tail).takeWhile (!isSeparator ·))),
    Scanner.mk ((c :: word ++ tail).dropWhile (!isSeparator ·))) = _
  rw [← hword, List.takeWhile_append_of_pos hinside, List.dropWhile_append_of_pos hinside, hstop.1,
    hstop.2, List.append_nil, String.ofList_toList]

theorem tokens_of_scan (h : scanner.scan = (some token, after)) :
    scanner.tokens = token :: after.tokens := by
  rw [tokens_eq_scan, h]

theorem tokens_append_of_getLast (hlast : ∀ c ∈ front.getLast?, isSeparator c = true)
    (tail : List Char) : tokens ⟨front ++ tail⟩ = tokens ⟨front⟩ ++ tokens ⟨tail⟩ := by
  rcases List.eq_nil_or_concat front with rfl | ⟨start, c, rfl⟩
  · rfl
  · rw [List.concat_eq_append] at hlast ⊢
    have hc := hlast c List.getLast?_concat
    rw [List.append_assoc, List.singleton_append, tokens_append_separator _ _ hc,
      tokens_append_separator _ _ hc]
    show _ = (_ ++ []) ++ _
    rw [List.append_nil]

theorem isSeparator_of_tokens_eq_nil (h : tokens ⟨text⟩ = []) :
    ∀ c ∈ text, isSeparator c = true := by
  obtain ⟨after, hscan⟩ := scan_of_tokens_nil h
  rw [scan] at hscan
  split at hscan
  · next hdrop => exact List.dropWhile_eq_nil_iff.1 hdrop
  · cases hscan

theorem tokens_of_separators (h : ∀ c ∈ text, isSeparator c = true) : tokens ⟨text⟩ = [] := by
  rw [← tokens_dropWhile, List.dropWhile_eq_nil_iff.2 h]
  rfl

/-- Scanning the front of a text does not depend on what comes after it. -/
theorem scan_append (h : scan ⟨front⟩ = (some token, after))
    (hlast : ∀ c ∈ front.getLast?, isSeparator c = true) (tail : List Char) :
    scan ⟨front ++ tail⟩ = (some token, ⟨after.rest ++ tail⟩) := by
  have htoken := isToken_of_scan h
  obtain ⟨blanks, hparts, hblanks, hhead⟩ := exists_of_scan h
  replace hparts : front = blanks ++ (token.toList ++ after.rest) := hparts
  -- The front ends in a separator, so the token is not its end.
  have hafter : after.rest ≠ [] := by
    intro hempty
    have hfull : token.toList ≠ [] := fun hnil => htoken.1 (String.toList_eq_nil_iff.1 hnil)
    rw [hempty, List.append_nil] at hparts
    have hend : front.getLast? = some (token.toList.getLast hfull) := by
      rw [hparts, List.getLast?_append_of_ne_nil _ hfull, List.getLast?_eq_some_getLast hfull]
    have hsep := hlast _ hend
    rw [htoken.2 _ (List.getLast_mem hfull)] at hsep
    cases hsep
  rw [hparts, List.append_assoc, List.append_assoc]
  refine scan_of_token hblanks htoken ?_
  rwa [List.head?_append_of_ne_nil _ hafter]

/-- What two scans go over: a front with the first token in it alone, and then the second one. -/
theorem exists_of_scan_scan {label : String} {middle : Scanner}
    (hlabel : scanner.scan = (some label, middle)) (h : middle.scan = (some token, after)) :
    ∃ front, scanner.rest = front ++ (token.toList ++ after.rest) ∧ tokens ⟨front⟩ = [label]
      ∧ (∀ c ∈ front.getLast?, isSeparator c = true)
      ∧ ∀ c ∈ after.rest.head?, isSeparator c = true := by
  obtain ⟨blanks, hparts, hblanks, hnext⟩ := exists_of_scan hlabel
  obtain ⟨between, hbetween, hseparators, htail⟩ := exists_of_scan h
  -- Something is between the tokens, as the second does not begin with a separator.
  have hne : between ≠ [] := by
    rintro rfl
    obtain ⟨c, word, hword⟩ := (isToken_of_scan h).exists_cons
    have hc := hnext c (by rw [hbetween, hword]; rfl)
    rw [(isToken_of_scan h).2 c (hword ▸ List.mem_cons_self)] at hc
    cases hc
  have hhead : ∀ c ∈ between.head?, isSeparator c = true :=
    fun c hc => hseparators c (List.mem_of_mem_head? hc)
  refine ⟨blanks ++ (label.toList ++ between), ?_, ?_, ?_, htail⟩
  · rw [hparts, hbetween]
    simp only [List.append_assoc]
  · rw [tokens_of_scan (scan_of_token hblanks (isToken_of_scan hlabel) hhead),
      tokens_of_separators hseparators]
  · rw [← List.append_assoc, List.getLast?_append_of_ne_nil _ hne]
    exact fun c hc => hseparators c (List.mem_of_getLast? hc)

/-! ## The end of a line -/

/-- A line that comes apart behind a character which does not end lines keeps all before it. -/
theorem rest_ofLine_of_not_lineEnd (front : List Char) {c : Char} (hc : isLineEnd c = false)
    (back : List Char) :
    (ofLine (String.ofList (front ++ c :: back))).rest
      = front ++ c :: (ofLine (String.ofList back)).rest := by
  have hstop : (c :: front.reverse).dropWhile isLineEnd = c :: front.reverse :=
    List.dropWhile_cons_of_neg (by rw [hc]; exact Bool.false_ne_true)
  have hreverse : (front ++ c :: back).reverse = back.reverse ++ c :: front.reverse := by simp
  rw [ofLine, ofLine, String.toList_ofList, String.toList_ofList, hreverse, List.dropWhile_append,
    hstop]
  split
  · next hempty => simp [List.isEmpty_iff.1 hempty]
  · simp

theorem exists_lineEnds (line : String) :
    ∃ ends, line.toList = (ofLine line).rest ++ ends ∧ ∀ c ∈ ends, isLineEnd c = true := by
  refine ⟨(line.toList.reverse.takeWhile isLineEnd).reverse, ?_, fun c hc => ?_⟩
  · rw [ofLine, ← List.reverse_append, List.takeWhile_append_dropWhile, List.reverse_reverse]
  · exact List.all_eq_true.1 List.all_takeWhile c (List.mem_reverse.1 hc)

end Scanner

/-! ## A line with a token left out -/

/-- What stands before a place on a line and what stands after it, when a word that is put there is
a token of its own. -/
structure Gap where
  front : List Char
  back : List Char
  before : ∀ c ∈ front.getLast?, isSeparator c = true
  after : (∀ c ∈ back, isLineEnd c = true) ∨ ∃ c rest, back = c :: rest ∧ isSeparator c = true

namespace Gap

variable {gap : Gap} {word : String}

/-- The line with a word in the gap. -/
def filled (gap : Gap) (word : String) : String :=
  String.ofList (gap.front ++ word.toList ++ gap.back)

/-- How many tokens stand before the gap. -/
def place (gap : Gap) : Nat :=
  (Scanner.mk gap.front).tokens.length

/-- The first of the tokens before the gap. -/
def label (gap : Gap) : String :=
  (Scanner.mk gap.front).tokens.headD ""

/-- What is left of the line after the gap. -/
def rest (gap : Gap) : List Char :=
  (Scanner.ofLine (String.ofList gap.back)).rest

theorem isSeparator_head_rest (gap : Gap) : ∀ c ∈ gap.rest.head?, isSeparator c = true := by
  rcases gap.after with hends | ⟨c, rest, hback, hc⟩
  · have hempty : gap.rest = [] := by
      rw [rest, Scanner.ofLine, String.toList_ofList, List.reverse_eq_nil_iff,
        List.dropWhile_eq_nil_iff]
      exact fun c hc => hends c (List.mem_reverse.1 hc)
    intro c hc
    rw [hempty] at hc
    cases hc
  · have hnot : isLineEnd c = false := by
      rw [isSeparator, Bool.or_eq_true, beq_iff_eq, beq_iff_eq] at hc
      rcases hc with rfl | rfl <;> rfl
    have hrest := Scanner.rest_ofLine_of_not_lineEnd [] hnot rest
    rw [Gap.rest, hback, show c :: rest = [] ++ c :: rest from rfl, hrest]
    rintro d ⟨⟩
    exact hc

theorem ofLine_filled (hword : IsWord word) :
    Scanner.ofLine (gap.filled word) = ⟨gap.front ++ (word.toList ++ gap.rest)⟩ := by
  obtain ⟨start, c, hsplit⟩ : ∃ start c, word.toList = start ++ [c] :=
    ⟨_, _, (List.dropLast_concat_getLast fun hempty =>
      hword.1 (String.toList_eq_nil_iff.1 hempty)).symm⟩
  have hc : isLineEnd c = false := (hword.2 c (hsplit ▸ List.mem_concat_self)).2
  have hrest := Scanner.rest_ofLine_of_not_lineEnd (gap.front ++ start) hc gap.back
  have hline : gap.front ++ word.toList ++ gap.back = gap.front ++ start ++ c :: gap.back := by
    simp [hsplit]
  rw [← hline] at hrest
  refine congrArg Scanner.mk (hrest.trans ?_)
  simp [hsplit, Gap.rest]

theorem tokens_filled (hword : IsWord word) :
    (Scanner.ofLine (gap.filled word)).tokens
      = (Scanner.mk gap.front).tokens ++ word :: (Scanner.mk gap.rest).tokens := by
  have hscan : Scanner.scan ⟨word.toList ++ gap.rest⟩ = (some word, ⟨gap.rest⟩) :=
    Scanner.scan_of_token (List.forall_mem_nil _) hword.isToken gap.isSeparator_head_rest
  rw [ofLine_filled hword, Scanner.tokens_append_of_getLast gap.before,
    Scanner.tokens_of_scan hscan]

theorem exists_filled {line name : String} {front tail : List Char}
    (hline : (Scanner.ofLine line).rest = front ++ (name.toList ++ tail))
    (hfront : ∀ c ∈ front.getLast?, isSeparator c = true)
    (htail : ∀ c ∈ tail.head?, isSeparator c = true) :
    ∃ gap : Gap, gap.front = front ∧ gap.filled name = line := by
  obtain ⟨ends, hends, hall⟩ := Scanner.exists_lineEnds line
  have hafter : (∀ c ∈ tail ++ ends, isLineEnd c = true)
      ∨ ∃ c rest, tail ++ ends = c :: rest ∧ isSeparator c = true := by
    cases tail with
    | nil => exact .inl hall
    | cons c tail => exact .inr ⟨c, tail ++ ends, rfl, htail c rfl⟩
  refine ⟨⟨front, tail ++ ends, hfront, hafter⟩, rfl, ?_⟩
  rw [← String.toList_inj, filled, String.toList_ofList, hends, hline]
  simp only [List.append_assoc]

end Gap

/-! ## Which token is the mnemonic -/

namespace Vocabulary

/-- The place of the mnemonic among the tokens of a line, and its spelling. The first token is the
label, except when it is known and the second is not. -/
def selected? (vocabulary : Vocabulary) : List String → Option (Nat × String)
  | [] => none
  | [first] => if vocabulary.contains first then some (0, first) else none
  | first :: second :: _ =>
    if vocabulary.contains first && !vocabulary.contains second then some (0, first)
    else some (1, second)

variable {vocabulary : Vocabulary} {gap : Gap} {name word other : String} {mnemonic : Mnemonic}

theorem selected?_eq_zero_iff {rest : List String} (hknown : vocabulary.contains word = true) :
    vocabulary.selected? (word :: rest) = some (0, word)
      ↔ vocabulary.startsUnlabeled word rest.head? = true := by
  cases rest <;> simp [selected?, startsUnlabeled, hknown]

theorem selected?_of_known {label : String} {rest : List String}
    (hknown : vocabulary.contains word = true) :
    vocabulary.selected? (label :: word :: rest) = some (1, word) := by
  simp [selected?, hknown]

theorem cases_of_selected? {tokens : List String} {place : Nat}
    (h : vocabulary.selected? tokens = some (place, name)) :
    (place = 0 ∧ ∃ rest, tokens = name :: rest)
      ∨ (place = 1 ∧ ∃ label rest, tokens = label :: name :: rest) := by
  cases tokens with
  | nil => cases h
  | cons first rest =>
      cases rest with
      | nil =>
          rw [selected?] at h
          split at h <;> cases h
          exact .inl ⟨rfl, _, rfl⟩
      | cons second rest =>
          rw [selected?] at h
          split at h <;> cases h
          · exact .inl ⟨rfl, _, rfl⟩
          · exact .inr ⟨rfl, _, _, rfl⟩

/-- Before the mnemonic there is nothing, or the label alone. -/
theorem front_of_selected? {tokens : List String}
    (h : vocabulary.selected? tokens = some (gap.place, name)) :
    (Scanner.mk gap.front).tokens = [] ∨ ∃ label, (Scanner.mk gap.front).tokens = [label] := by
  rw [← List.length_eq_zero_iff, ← List.length_eq_one_iff]
  exact (cases_of_selected? h).imp And.left And.left

/-- The line is divided as before when another word that is known is put in the gap. -/
theorem selected?_filled (hname : IsWord name) (hother : IsWord other)
    (hknown : vocabulary.contains name = true) (hknownOther : vocabulary.contains other = true)
    (hselected : vocabulary.selected? (Scanner.ofLine (gap.filled name)).tokens
      = some (gap.place, name)) :
    vocabulary.selected? (Scanner.ofLine (gap.filled other)).tokens = some (gap.place, other) := by
  rw [Gap.tokens_filled hname] at hselected
  rw [Gap.tokens_filled hother]
  obtain hfront | ⟨label, hfront⟩ := front_of_selected? hselected
  · rw [Gap.place, hfront, List.nil_append, List.length_nil] at hselected ⊢
    rw [selected?_eq_zero_iff hknown, startsUnlabeled, hknown] at hselected
    rwa [selected?_eq_zero_iff hknownOther, startsUnlabeled, hknownOther]
  · rw [Gap.place, hfront]
    exact selected?_of_known hknownOther

/-- What is read where a known word is the mnemonic: the label is before the gap, and the operands
are after it. -/
theorem readLine_filled (hword : IsWord word) (hknown : vocabulary.contains word = true)
    (hselected : vocabulary.selected? (Scanner.ofLine (gap.filled word)).tokens
      = some (gap.place, word)) (number : Nat) :
    vocabulary.readLine number (gap.filled word)
      = vocabulary.readOperands gap.label word ⟨gap.rest⟩ (lineReference number gap.label) := by
  rw [Gap.tokens_filled hword] at hselected
  obtain hfront | ⟨label, hfront⟩ := front_of_selected? hselected
  · have hscan := Scanner.scan_of_token (Scanner.isSeparator_of_tokens_eq_nil hfront)
      hword.isToken gap.isSeparator_head_rest
    rw [Gap.place, hfront, List.nil_append, List.length_nil, selected?_eq_zero_iff hknown,
      ← Scanner.peek_eq_head?] at hselected
    rw [readLine, Gap.ofLine_filled hword, hscan, Gap.label, hfront]
    simp only [hselected, if_true]
    rfl
  · have hlabel : label ≠ "" := Scanner.ne_empty_of_mem_tokens (hfront ▸ List.mem_cons_self)
    obtain ⟨after, hscan, hafter⟩ := Scanner.scan_of_tokens_cons hfront
    have hscanLabel := Scanner.scan_append hscan gap.before (word.toList ++ gap.rest)
    have hscanWord := Scanner.scan_of_token (Scanner.isSeparator_of_tokens_eq_nil hafter)
      hword.isToken gap.isSeparator_head_rest
    have hpeek : (Scanner.mk (after.rest ++ (word.toList ++ gap.rest))).peek = some word :=
      congrArg Prod.fst hscanWord
    have hstarts : vocabulary.startsUnlabeled label (some word) = false := by
      rw [startsUnlabeled, Option.any_some, hknown]
      exact Bool.and_false _
    rw [readLine, Gap.ofLine_filled hword, hscanLabel, Gap.label, hfront]
    simp only [hpeek, hstarts, hscanWord]
    rw [List.headD_cons, lineReference, if_neg hlabel]
    rfl

/-- The spelling is looked up and not used again. -/
theorem readOperands_of_find? (hname : vocabulary.find? name = some mnemonic)
    (hother : vocabulary.find? other = some mnemonic) (label : String) (scanner : Scanner)
    (reference : String) :
    vocabulary.readOperands label other scanner reference
      = vocabulary.readOperands label name scanner reference := by
  rw [readOperands, readOperands, decode_of_find? hname, decode_of_find? hother]

/-- Where the mnemonic stands there is a gap. -/
theorem exists_gap {line : String} {place : Nat}
    (hselected : vocabulary.selected? (Scanner.ofLine line).tokens = some (place, name)) :
    ∃ gap : Gap, gap.place = place ∧ gap.filled name = line := by
  obtain ⟨rfl, rest, htokens⟩ | ⟨rfl, label, rest, htokens⟩ := cases_of_selected? hselected
  · obtain ⟨after, hscan, -⟩ := Scanner.scan_of_tokens_cons htokens
    obtain ⟨blanks, hparts, hblanks, htail⟩ := Scanner.exists_of_scan hscan
    have hlast : ∀ c ∈ blanks.getLast?, isSeparator c = true :=
      fun c hc => hblanks c (List.mem_of_getLast? hc)
    obtain ⟨gap, rfl, hfilled⟩ := Gap.exists_filled hparts hlast htail
    refine ⟨gap, ?_, hfilled⟩
    rw [Gap.place, Scanner.tokens_of_separators hblanks, List.length_nil]
  · obtain ⟨afterLabel, hscanLabel, hrest⟩ := Scanner.scan_of_tokens_cons htokens
    obtain ⟨after, hscan, -⟩ := Scanner.scan_of_tokens_cons hrest
    obtain ⟨front, hparts, hfront, hlast, htail⟩ := Scanner.exists_of_scan_scan hscanLabel hscan
    obtain ⟨gap, rfl, hfilled⟩ := Gap.exists_filled hparts hlast htail
    refine ⟨gap, ?_, hfilled⟩
    rw [Gap.place, hfront]
    rfl

/-- Two words that a vocabulary knows as the same may stand for each other. On every line that one
of them is the mnemonic of, there is a place where it stands; and with the other put there, the
mnemonic is that one, at the same place among the tokens, and what is read is the same instruction,
or the same fault with the same reference. -/
theorem readLine_respelled (vocabulary : Vocabulary) {name other line : String} {place : Nat}
    {mnemonic : Mnemonic} (hname : vocabulary.find? name = some mnemonic)
    (hother : vocabulary.find? other = some mnemonic) (hword : IsWord name)
    (hwordOther : IsWord other)
    (hselected : vocabulary.selected? (Scanner.ofLine line).tokens = some (place, name)) :
    (∃ gap : Gap, gap.place = place ∧ gap.filled name = line)
      ∧ ∀ gap : Gap, gap.place = place → gap.filled name = line →
        vocabulary.selected? (Scanner.ofLine (gap.filled other)).tokens = some (place, other)
          ∧ ∀ number, vocabulary.readLine number (gap.filled other)
            = vocabulary.readLine number line := by
  have hknown : vocabulary.contains name = true := by
    rw [contains, hname]
    rfl
  have hknownOther : vocabulary.contains other = true := by
    rw [contains, hother]
    rfl
  refine ⟨exists_gap hselected, ?_⟩
  rintro gap rfl rfl
  have hselectedOther := selected?_filled hword hwordOther hknown hknownOther hselected
  refine ⟨hselectedOther, fun number => ?_⟩
  rw [readLine_filled hword hknown hselected, readLine_filled hwordOther hknownOther hselectedOther]
  exact readOperands_of_find? hname hother _ _ _

/-- A vocabulary with an alias. -/
def printing : Vocabulary :=
  standard.insert "print" ⟨"out", Opcode.out.format⟩

/-- The label is an alias as well, and there is an operand too many. -/
def outspoken : Gap where
  front := "print\t ".toList
  back := " 1 2\r".toList
  before := by
    rintro c ⟨⟩
    rfl
  after := .inr ⟨' ', _, rfl, rfl⟩

theorem readLine_respelled_outspoken :
    standard.enterAlias "print" "OUT" = .ok printing
      ∧ printing.selected? (Scanner.ofLine "print\t PRINT 1 2\r").tokens = some (1, "PRINT")
      ∧ printing.selected? (Scanner.ofLine (outspoken.filled "oUt")).tokens = some (1, "oUt")
      ∧ printing.readLine 3 (outspoken.filled "oUt")
        = printing.readLine 3 "print\t PRINT 1 2\r"
      ∧ printing.readLine 3 "print\t PRINT 1 2\r"
        = .rejected (.extraOperand "out" "2") "print" := by
  have hout : ∀ name, normalize name = "out" →
      standard.find? name = some ⟨"out", Opcode.out.format⟩ :=
    fun name hname => find?_standard_eq_some (show Opcode.out.Named name from hname.symm)
  have halias : standard.enterAlias "print" "OUT" = .ok printing := by
    have hfold : normalize "OUT" = "out" := by decide +kernel
    rw [printing, enterAlias, lookup, hout "OUT" hfold]
    rfl
  have hname : printing.find? "PRINT" = some ⟨"out", Opcode.out.format⟩ := by
    have hfold : normalize "print" = "print" ∧ normalize "PRINT" = "print" := by decide +kernel
    rw [printing, find?_insert, if_pos (hfold.1.trans hfold.2.symm)]
  have hother : printing.find? "oUt" = some ⟨"out", Opcode.out.format⟩ := by
    have happart : normalize "print" ≠ normalize "oUt" := by decide +kernel
    have hfold : normalize "oUt" = "out" := by decide +kernel
    rw [printing, find?_insert, if_neg happart, hout "oUt" hfold]
  have hknown : printing.contains "PRINT" = true := by
    rw [contains, hname]
    rfl
  have hline : outspoken.filled "PRINT" = "print\t PRINT 1 2\r" := by decide +kernel
  have hselected : printing.selected? (Scanner.ofLine "print\t PRINT 1 2\r").tokens
      = some (1, "PRINT") := by
    have htokens : (Scanner.ofLine "print\t PRINT 1 2\r").tokens
        = ["print", "PRINT", "1", "2"] := by decide +kernel
    rw [htokens]
    exact selected?_of_known hknown
  have hrejected : printing.readLine 3 "print\t PRINT 1 2\r"
      = .rejected (.extraOperand "out" "2") "print" := by
    rw [← hline] at hselected ⊢
    rw [readLine_filled (by decide) hknown hselected, readOperands, decode_of_find? hname]
    decide +kernel
  obtain ⟨hsame, hread⟩ := (readLine_respelled printing hname hother (by decide) (by decide)
    hselected).2 outspoken (by decide +kernel) hline
  exact ⟨halias, hselected, hsame, hread 3, hrejected⟩

end Vocabulary

end RegisterMachine
