/-!
# Scanning a source line

A line is a sequence of tokens, and a token is a longest run of characters that
are neither space nor tab. Those two are the only separators: any other blank,
and a carriage return in mid-line too, is part of a token. The line's own end,
in whatever mixture of carriage returns and line feeds it comes, is taken off
before scanning starts.

A scanner holds what is left of the line and gives up one token at a time.
`tokens` says at once what it will give up, and `tokens_eq_scan` that it does.
-/

namespace RegisterMachine

/-- Whether a character separates tokens. -/
def isSeparator (c : Char) : Bool :=
  c == ' ' || c == '\t'

/-- Whether a character belongs to the end of a line. -/
def isLineEnd (c : Char) : Bool :=
  c == '\r' || c == '\n'

/-- The part of a line that is still to be scanned. -/
structure Scanner where
  rest : List Char
  deriving DecidableEq, Repr, Inhabited

namespace Scanner

/-- A scanner at the start of a line, with the line's end taken off. -/
def ofLine (line : String) : Scanner :=
  ⟨(line.toList.reverse.dropWhile isLineEnd).reverse⟩

/-- Takes the next token off the line, if one is left. -/
def scan (scanner : Scanner) : Option String × Scanner :=
  match scanner.rest.dropWhile isSeparator with
  | [] => (none, ⟨[]⟩)
  | c :: rest =>
    (some (String.ofList ((c :: rest).takeWhile (!isSeparator ·))),
      ⟨(c :: rest).dropWhile (!isSeparator ·)⟩)

/-- The next token, left where it is. -/
def peek (scanner : Scanner) : Option String :=
  scanner.scan.1

/-- Whether no token is left. -/
def exhausted (scanner : Scanner) : Bool :=
  scanner.peek.isNone

/-- All the tokens that are left: the pieces between separators, without the empty ones. -/
def tokens (scanner : Scanner) : List String :=
  ((scanner.rest.splitOnP isSeparator).filter (!·.isEmpty)).map String.ofList

theorem tokens_dropWhile (rest : List Char) :
    tokens ⟨rest.dropWhile isSeparator⟩ = tokens ⟨rest⟩ := by
  induction rest with
  | nil => rfl
  | cons c rest ih =>
      by_cases h : isSeparator c
      · rw [List.dropWhile_cons_of_pos h, ih]
        simp [tokens, List.splitOnP_cons_eq_if_modifyHead, h]
      · rw [List.dropWhile_cons_of_neg h]

theorem tokens_append {word : List Char} (hnonempty : word ≠ [])
    (hwhole : ∀ c ∈ word, isSeparator c = false) {rest : List Char}
    (hends : ∀ c ∈ rest.head?, isSeparator c = true) :
    tokens ⟨word ++ rest⟩ = String.ofList word :: tokens ⟨rest⟩ := by
  cases rest with
  | nil => simp [tokens, List.splitOnP_eq_singleton hwhole, hnonempty]
  | cons c rest =>
      have h := hends c rfl
      simp [tokens, List.splitOnP_append_cons_of_forall_mem hwhole c h, hnonempty,
        List.splitOnP_cons_eq_if_modifyHead, h]

theorem isSeparator_head_dropWhile (rest : List Char) :
    ∀ c ∈ (rest.dropWhile (!isSeparator ·)).head?, isSeparator c = true := by
  induction rest with
  | nil => simp
  | cons c rest ih =>
      by_cases h : isSeparator c
      · simp [h]
      · simpa [List.dropWhile_cons, h] using ih

/-- Scanning gives up the tokens of the line one by one, from the first to the last. -/
theorem tokens_eq_scan (scanner : Scanner) :
    scanner.tokens = match scanner.scan with
      | (none, _) => []
      | (some token, after) => token :: after.tokens := by
  rw [← tokens_dropWhile scanner.rest, scan]
  cases hleft : scanner.rest.dropWhile isSeparator with
  | nil => rfl
  | cons c rest =>
      have hfirst : isSeparator c = false := by
        have := List.head?_dropWhile_not isSeparator scanner.rest
        rw [hleft] at this
        simpa only [List.head?_cons] using this
      conv => lhs; rw [← List.takeWhile_append_dropWhile (p := (!isSeparator ·)) (l := c :: rest)]
      refine tokens_append ?_ ?_ (isSeparator_head_dropWhile _)
      · rw [List.takeWhile_cons_of_pos (by rw [hfirst]; rfl)]
        exact List.cons_ne_nil _ _
      · intro d hd
        simpa using List.all_eq_true.1 List.all_takeWhile d hd

end Scanner

end RegisterMachine
