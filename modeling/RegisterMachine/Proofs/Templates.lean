import RegisterMachine.Derive.Expansion

/-!
# What the writer of messages makes of a template

The display of an error hands a template to the writer of formatted text, and
that writer has a grammar of its own: a doubled brace is a brace, a single
opening brace starts a placeholder, which goes on to the next brace, and that
has to be a closing one. `fragments` reads a text by this grammar, and `render`
writes what was read, given the values by key and any way to format a value.

The other side is a template that is known by its segments. `spell` writes the
segments with any name for each key and `written` is the text they stand for.
`render_spell` brings the two together: however the keys are named, as long as
the names can be keys and each name finds the value of its key, what is rendered
is what is written. A change of names therefore changes nothing in the output.
-/

namespace RegisterMachine.Derive

def isBrace (c : Char) : Bool :=
  c == openBrace || c == closeBrace

/-- What the writer finds in a template. -/
inductive Fragment
  | literal (c : Char)
  | placeholder (key : String) (spec : Option String)
  deriving DecidableEq, Repr

/-- The placeholder with this text between its braces. -/
def Fragment.ofBody (body : List Char) : Fragment :=
  .placeholder (String.ofList (body.takeWhile (· != ':')))
    (match body.dropWhile (· != ':') with
      | [] => none
      | _ :: spec => some (String.ofList spec))

/-- A template as the writer reads it, unless it has a single brace that neither starts nor ends a
placeholder. -/
def fragments : List Char → Option (List Fragment)
  | [] => some []
  | c :: rest =>
    if !isBrace c then (fragments rest).map (.literal c :: ·)
    else if rest.head? = some c then (fragments rest.tail).map (.literal c :: ·)
    else if c = openBrace ∧ (rest.dropWhile (!isBrace ·)).head? = some closeBrace then
      (fragments (rest.dropWhile (!isBrace ·)).tail).map
        (.ofBody (rest.takeWhile (!isBrace ·)) :: ·)
    else none
termination_by text => text.length
decreasing_by
  · simp
  · simp only [List.length_tail, List.length_cons]; omega
  · have hlength := (List.dropWhile_suffix (l := rest) (!isBrace ·)).length_le
    simp only [List.length_tail, List.length_cons] at hlength ⊢
    omega

universe u

variable {α : Type u} {κ : Type}

/-- The text of a fragment, unless there is no value under its key. -/
def Fragment.write (value? : String → Option α) (format : Option String → α → String) :
    Fragment → Option String
  | literal c => some (String.singleton c)
  | placeholder key spec => (value? key).map (format spec)

/-- The text that a message gives with these values. -/
def render (value? : String → Option α) (format : Option String → α → String)
    (message : String) : Option String := do
  let parts ← fragments message.toList
  let texts ← parts.mapM (Fragment.write value? format)
  return String.join texts

/-- How a value is to be formatted: any text without braces. -/
structure Spec where
  text : String
  braceless : ∀ c ∈ text.toList, isBrace c = false

/-- A part of a well-formed template. -/
inductive Segment (κ : Type)
  | plain (c : Char) (hbrace : isBrace c = false)
  /-- A brace written twice. -/
  | escaped (c : Char) (hbrace : isBrace c = true)
  | field (key : κ) (spec : Option Spec)

def specText : Option Spec → List Char
  | none => []
  | some spec => ':' :: spec.text.toList

def Segment.text (name : κ → String) : Segment κ → List Char
  | plain c _ => [c]
  | escaped c _ => [c, c]
  | field key spec => openBrace :: ((name key).toList ++ specText spec ++ [closeBrace])

/-- The template with these segments. -/
def spell (name : κ → String) (segments : List (Segment κ)) : String :=
  String.ofList (segments.flatMap (Segment.text name))

def Segment.write (value : κ → α) (format : Option String → α → String) : Segment κ → String
  | plain c _ => String.singleton c
  | escaped c _ => String.singleton c
  | field key spec => format (spec.map Spec.text) (value key)

/-- The text that segments stand for. -/
def written (value : κ → α) (format : Option String → α → String)
    (segments : List (Segment κ)) : String :=
  String.join (segments.map (Segment.write value format))

def keysOf (segments : List (Segment κ)) : List κ :=
  segments.filterMap fun
    | .field key _ => some key
    | _ => none

theorem mem_keysOf {key : κ} {segments : List (Segment κ)} :
    key ∈ keysOf segments ↔ ∃ spec, Segment.field key spec ∈ segments := by
  rw [keysOf, List.mem_filterMap]
  constructor
  · rintro ⟨segment, hmem, hkey⟩
    cases segment with
    | plain c hc => cases hkey
    | escaped c hc => cases hkey
    | field other spec =>
        cases hkey
        exact ⟨spec, hmem⟩
  · rintro ⟨spec, hmem⟩
    exact ⟨.field key spec, hmem, rfl⟩

/-! ## Reading what was spelled -/

/-- A name that ends where its placeholder says: it has no brace and no colon in it. -/
def IsKey (key : String) : Prop :=
  ∀ c ∈ key.toList, isBrace c = false ∧ c ≠ ':'

theorem braceless_specText (spec : Option Spec) : ∀ c ∈ specText spec, isBrace c = false := by
  cases spec with
  | none => exact List.forall_mem_nil _
  | some spec => exact List.forall_mem_cons.2 ⟨rfl, spec.braceless⟩

theorem fragments_plain {c : Char} (hc : isBrace c = false) (rest : List Char) :
    fragments (c :: rest) = (fragments rest).map (.literal c :: ·) := by
  rw [fragments, hc]
  rfl

theorem fragments_escaped {c : Char} (hc : isBrace c = true) (rest : List Char) :
    fragments (c :: c :: rest) = (fragments rest).map (.literal c :: ·) := by
  rw [fragments, hc]
  exact if_pos rfl

theorem takeWhile_append_stop {p : Char → Bool} {front : List Char}
    (hfront : ∀ c ∈ front, p c = true) {stop : Char} (hstop : p stop = false) (rest : List Char) :
    (front ++ stop :: rest).takeWhile p = front := by
  rw [List.takeWhile_append_of_pos hfront,
    List.takeWhile_cons_of_neg (by rw [hstop]; exact Bool.false_ne_true), List.append_nil]

theorem dropWhile_append_stop {p : Char → Bool} {front : List Char}
    (hfront : ∀ c ∈ front, p c = true) {stop : Char} (hstop : p stop = false) (rest : List Char) :
    (front ++ stop :: rest).dropWhile p = stop :: rest := by
  rw [List.dropWhile_append_of_pos hfront,
    List.dropWhile_cons_of_neg (by rw [hstop]; exact Bool.false_ne_true)]

theorem head?_append_stop {front : List Char} (hfront : ∀ c ∈ front, isBrace c = false)
    {stop : Char} (hstop : stop ≠ openBrace) (rest : List Char) :
    (front ++ stop :: rest).head? ≠ some openBrace := by
  cases front with
  | nil => exact fun hhead => hstop (Option.some.inj hhead)
  | cons c front =>
      intro hhead
      have hc : isBrace c = false := hfront c List.mem_cons_self
      cases hhead
      exact absurd hc (by decide)

theorem fragments_placeholder {body : List Char} (hbody : ∀ c ∈ body, isBrace c = false)
    (rest : List Char) :
    fragments (openBrace :: (body ++ closeBrace :: rest))
      = (fragments rest).map (.ofBody body :: ·) := by
  -- neither the key nor the format has a brace, so the next one is the one that ends both
  have hpos : ∀ c ∈ body, (!isBrace c) = true := fun c hc => by rw [hbody c hc]; rfl
  rw [fragments, if_neg (by decide), if_neg (head?_append_stop hbody (by decide) rest),
    dropWhile_append_stop hpos rfl, takeWhile_append_stop hpos rfl, if_pos ⟨rfl, rfl⟩]
  rfl

theorem Fragment.ofBody_key_spec {key : String} (hkey : IsKey key) (spec : Option Spec) :
    ofBody (key.toList ++ specText spec) = placeholder key (spec.map Spec.text) := by
  have hpos : ∀ c ∈ key.toList, (c != ':') = true := fun c hc => bne_iff_ne.2 (hkey c hc).2
  cases spec with
  | none =>
      rw [specText, ofBody, List.takeWhile_append_of_pos hpos, List.dropWhile_append_of_pos hpos,
        List.takeWhile_nil, List.append_nil, String.ofList_toList]
      rfl
  | some spec =>
      rw [specText, ofBody, takeWhile_append_stop hpos rfl, dropWhile_append_stop hpos rfl,
        String.ofList_toList]
      show placeholder key (some (String.ofList spec.text.toList)) = _
      rw [String.ofList_toList]
      rfl

def Segment.fragment (name : κ → String) : Segment κ → Fragment
  | plain c _ => .literal c
  | escaped c _ => .literal c
  | field key spec => .placeholder (name key) (spec.map Spec.text)

variable {name : κ → String}

theorem fragments_segment (hname : ∀ key, IsKey (name key)) (segment : Segment κ)
    (rest : List Char) :
    fragments (segment.text name ++ rest)
      = (fragments rest).map (segment.fragment name :: ·) := by
  cases segment with
  | plain c hc => exact fragments_plain hc rest
  | escaped c hc => exact fragments_escaped hc rest
  | field key spec =>
      have hbody : ∀ c ∈ (name key).toList ++ specText spec, isBrace c = false := by
        intro c hc
        rcases List.mem_append.1 hc with hkey | hspec
        · exact (hname key c hkey).1
        · exact braceless_specText spec c hspec
      have hread := fragments_placeholder hbody rest
      rw [Fragment.ofBody_key_spec (hname key)] at hread
      rw [Segment.text, List.cons_append, List.append_assoc]
      exact hread

theorem fragments_spell (hname : ∀ key, IsKey (name key)) (segments : List (Segment κ)) :
    fragments (spell name segments).toList = some (segments.map (Segment.fragment name)) := by
  rw [spell, String.toList_ofList]
  induction segments with
  | nil => rw [List.flatMap_nil, fragments]; rfl
  | cons segment segments ih =>
      rw [List.flatMap_cons, fragments_segment hname, ih]
      rfl

theorem Segment.write_fragment {value? : String → Option α} {value : κ → α}
    (format : Option String → α → String) (segment : Segment κ)
    (hvalue : ∀ key spec, segment = field key spec → value? (name key) = some (value key)) :
    (segment.fragment name).write value? format = some (segment.write value format) := by
  cases segment with
  | plain c hc => rfl
  | escaped c hc => rfl
  | field key spec =>
      rw [fragment, Fragment.write, hvalue key spec rfl]
      rfl

theorem render_spell {value? : String → Option α} {value : κ → α}
    (format : Option String → α → String) (hname : ∀ key, IsKey (name key))
    {segments : List (Segment κ)}
    (hvalue : ∀ key ∈ keysOf segments, value? (name key) = some (value key)) :
    render value? format (spell name segments) = some (written value format segments) := by
  have htexts : (segments.map (Segment.fragment name)).mapM (Fragment.write value? format)
      = some (segments.map (Segment.write value format)) := by
    induction segments with
    | nil => rfl
    | cons segment segments ih =>
        have hhead : (segment.fragment name).write value? format
            = some (segment.write value format) :=
          segment.write_fragment format fun key spec hfield =>
            hvalue key (mem_keysOf.2 ⟨spec, hfield ▸ List.mem_cons_self⟩)
        have htail := ih fun key hkey => by
          obtain ⟨spec, hmem⟩ := mem_keysOf.1 hkey
          exact hvalue key (mem_keysOf.2 ⟨spec, List.mem_cons_of_mem _ hmem⟩)
        rw [List.map_cons, List.mapM_cons, hhead, htail]
        rfl
  rw [render, fragments_spell hname]
  show ((segments.map (Segment.fragment name)).mapM _ >>= fun texts => some (String.join texts)) = _
  rw [htexts]
  rfl

/-! ## Mentioned keys -/

/-- A key is mentioned where it has a placeholder. That text between escaped braces may look like
one does not matter for this direction. -/
theorem mentions_spell {segments : List (Segment κ)} {key : κ} (hkey : key ∈ keysOf segments) :
    mentions (spell name segments) (name key) = true := by
  obtain ⟨spec, hmem⟩ := mem_keysOf.1 hkey
  have hinfix : (Segment.field key spec).text name <:+: (spell name segments).toList := by
    rw [spell, String.toList_ofList, List.flatMap]
    exact List.infix_of_mem_flatten (List.mem_map_of_mem hmem)
  rw [mentions, Bool.or_eq_true, occursIn_iff, occursIn_iff]
  cases spec with
  | none =>
      left
      rw [Segment.text, specText, List.append_nil] at hinfix
      exact hinfix
  | some spec =>
      right
      refine List.IsInfix.trans (List.IsPrefix.isInfix ⟨spec.text.toList ++ [closeBrace], ?_⟩)
        hinfix
      rw [Segment.text, specText, List.cons_append, List.append_assoc, List.cons_append,
        List.append_assoc]
      rfl

end RegisterMachine.Derive
