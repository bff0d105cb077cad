import RegisterMachine.Proofs.PositionNames

/-!
# What the search for a placeholder finds

Whether a template uses a key is decided by looking for a text in it: an opening
brace, the key, and what ends a key, a closing brace or a colon. The search
knows nothing of escaped braces, and the writer of the message does.

On a well-formed template the two differ in one place only. An opening brace
stands at the start of a placeholder or is one of an escaped pair. Behind the
first of a pair stands the second, which no key begins with. Behind the second
there may stand anything, and if that is a key and what ends it, the search
finds a placeholder where the writer finds a brace and some text. `Feigned` says
that a template does this to a key.

So all keys that are used are found, and of the others those that are feigned. A
field with such a name is passed to the writer, and nothing in the message asks
for it.
-/

namespace RegisterMachine.Derive

instance (key : String) : Decidable (IsKey key) :=
  decidable_of_iff (key.toList.all fun c => !isBrace c && c != ':') (by simp [IsKey])

/-- A key as a text of its own: an identifier, or any other text without brace and colon. -/
abbrev Key : Type :=
  { text : String // IsKey text }

/-! ## The search, one character after the other -/

/-- The text begins with a key and something that ends it. -/
def BeginsWithKey (key : String) (text : List Char) : Prop :=
  ∃ stop, isKeyChar stop = false ∧ key.toList ++ [stop] <+: text

theorem isKeyChar_eq_false_iff {c : Char} : isKeyChar c = false ↔ c = closeBrace ∨ c = ':' := by
  rw [isKeyChar, Bool.and_eq_false_iff, bne_eq_false_iff_eq, bne_eq_false_iff_eq]

theorem isKeyChar_openBrace : isKeyChar openBrace = true := by
  decide

theorem IsKey.isKeyChar {key : String} (hkey : IsKey key) :
    ∀ c ∈ key.toList, isKeyChar c = true := by
  intro c hc
  obtain ⟨hbrace, hcolon⟩ := hkey c hc
  rw [← Bool.not_eq_false, isKeyChar_eq_false_iff]
  rintro (rfl | rfl)
  · exact absurd hbrace (by decide)
  · exact hcolon rfl

theorem beginsWithKey_iff {key : String} {text : List Char} :
    BeginsWithKey key text
      ↔ key.toList ++ [closeBrace] <+: text ∨ key.toList ++ [':'] <+: text := by
  rw [BeginsWithKey]
  simp only [isKeyChar_eq_false_iff, or_and_right, exists_or, exists_eq_left]

/-- What begins with an opening brace does not begin with a key. -/
theorem not_beginsWithKey_open {key : String} (hkey : IsKey key) (text : List Char) :
    ¬ BeginsWithKey key (openBrace :: text) := by
  rintro ⟨stop, hstop, hstarts⟩
  cases hchars : key.toList with
  | nil =>
      rw [hchars, List.nil_append, List.cons_prefix_cons] at hstarts
      rw [hstarts.1, isKeyChar_openBrace] at hstop
      cases hstop
  | cons c chars =>
      rw [hchars, List.cons_append, List.cons_prefix_cons] at hstarts
      have hbrace := (hkey c (hchars ▸ List.mem_cons_self)).1
      rw [hstarts.1] at hbrace
      exact absurd hbrace (by decide)

/-- A text that begins with a key and its end begins with no other key and its end. -/
theorem beginsWithKey_append_iff {key other : String} (hkey : IsKey key) (hother : IsKey other)
    {stop : Char} (hstop : isKeyChar stop = false) (rest : List Char) :
    BeginsWithKey key (other.toList ++ stop :: rest) ↔ key = other := by
  constructor
  · rintro ⟨last, hlast, after, htext⟩
    rw [List.append_assoc, List.singleton_append] at htext
    have hchars := congrArg (List.takeWhile isKeyChar) htext
    rw [takeWhile_append_stop hkey.isKeyChar hlast,
      takeWhile_append_stop hother.isKeyChar hstop] at hchars
    exact String.toList_inj.1 hchars
  · rintro rfl
    exact ⟨stop, hstop, rest, by rw [List.append_assoc, List.singleton_append]⟩

theorem mentions_nil (key : String) : mentions (String.ofList []) key = false := by
  rw [mentions, String.toList_ofList]
  rfl

theorem mentions_cons (key : String) (c : Char) (text : List Char) :
    mentions (String.ofList (c :: text)) key = true
      ↔ c = openBrace ∧ BeginsWithKey key text ∨ mentions (String.ofList text) key = true := by
  have hinfix : ∀ stop, openBrace :: key.toList ++ [stop] <:+: c :: text
      ↔ c = openBrace ∧ key.toList ++ [stop] <+: text
        ∨ openBrace :: key.toList ++ [stop] <:+: text := by
    intro stop
    rw [List.infix_cons_iff, List.cons_append, List.cons_prefix_cons, @eq_comm _ openBrace]
  rw [mentions, mentions, String.toList_ofList, String.toList_ofList, Bool.or_eq_true,
    Bool.or_eq_true, occursIn_iff, occursIn_iff, occursIn_iff, occursIn_iff, hinfix, hinfix,
    beginsWithKey_iff, and_or_left, or_or_or_comm]

theorem mentions_append_right {key : String} {text : List Char}
    (h : mentions (String.ofList text) key = true) (front : List Char) :
    mentions (String.ofList (front ++ text)) key = true := by
  induction front with
  | nil => exact h
  | cons c front ih => exact (mentions_cons key c (front ++ text)).2 (.inr ih)

theorem mentions_append_of_bare (key : String) {front : List Char}
    (hfront : ∀ c ∈ front, c ≠ openBrace) (text : List Char) :
    mentions (String.ofList (front ++ text)) key = true
      ↔ mentions (String.ofList text) key = true := by
  induction front with
  | nil => rw [List.nil_append]
  | cons c front ih =>
      obtain ⟨hc, hfront⟩ := List.forall_mem_cons.1 hfront
      rw [List.cons_append, mentions_cons, ih hfront]
      exact or_iff_right fun h => hc h.1

/-! ## The search, one segment after the other -/

/-- In what is left of a template an escaped opening brace stands before the key and something that
would end it. -/
inductive Feigned (key : Key) : List (Segment Key) → Prop
  | here {hbrace : isBrace openBrace = true} {rest : List (Segment Key)}
      (hbegins : BeginsWithKey key.val (spell Subtype.val rest).toList) :
      Feigned key (.escaped openBrace hbrace :: rest)
  | later {segment : Segment Key} {rest : List (Segment Key)} (h : Feigned key rest) :
      Feigned key (segment :: rest)

theorem feigned_cons_iff {key : Key} {segment : Segment Key} {rest : List (Segment Key)} :
    Feigned key (segment :: rest)
      ↔ (∃ hbrace, segment = .escaped openBrace hbrace
          ∧ BeginsWithKey key.val (spell Subtype.val rest).toList)
        ∨ Feigned key rest := by
  constructor
  · intro h
    cases h with
    | here hbegins => exact .inl ⟨_, rfl, hbegins⟩
    | later h => exact .inr h
  · rintro (⟨hbrace, rfl, hbegins⟩ | h)
    · exact .here hbegins
    · exact .later h

/-- Of a segment, the search can stop at the start of a placeholder with the key, or at the second
of two opening braces. -/
theorem mentions_segment_iff (key : Key) (segment : Segment Key) (text : List Char) :
    mentions (String.ofList (segment.text Subtype.val ++ text)) key.val = true
      ↔ (∃ spec, segment = .field key spec)
        ∨ (∃ hbrace, segment = .escaped openBrace hbrace ∧ BeginsWithKey key.val text)
        ∨ mentions (String.ofList text) key.val = true := by
  cases segment with
  | plain c hc =>
      have hbare := mentions_append_of_bare key.val
        (List.forall_mem_singleton.2 (ne_openBrace hc)) text
      simpa [Segment.text] using hbare
  | escaped c hc =>
      rw [Segment.text, List.cons_append, List.singleton_append, mentions_cons, mentions_cons]
      by_cases hopen : c = openBrace
      · subst hopen
        simp [not_beginsWithKey_open key.property, hc]
      · simp [hopen]
  | field other spec =>
      -- behind the first brace of a placeholder there is no other, so only its key can be found
      obtain ⟨stop, after, hafter, hstop, hbare⟩ := exists_stop spec
      have htext : (Segment.field other spec).text Subtype.val ++ text
          = openBrace :: (other.val.toList ++ stop :: (after ++ text)) := by
        rw [Segment.text, List.append_assoc, hafter]
        simp
      have hrest : ∀ c ∈ other.val.toList ++ stop :: after, c ≠ openBrace := by
        intro c hc
        rcases List.mem_append.1 hc with hc | hc
        · exact ne_openBrace (other.property c hc).1
        · exact hbare c hc
      have hsearch := mentions_append_of_bare key.val hrest text
      rw [List.append_assoc, List.cons_append] at hsearch
      have hfield : (∃ found, Segment.field other spec = .field key found) ↔ key = other := by
        constructor
        · rintro ⟨found, h⟩
          cases h
          rfl
        · rintro rfl
          exact ⟨spec, rfl⟩
      have hescaped : ¬ ∃ hbrace, Segment.field other spec = .escaped openBrace hbrace
          ∧ BeginsWithKey key.val text := by
        rintro ⟨hbrace, h, -⟩
        cases h
      rw [htext, mentions_cons, hsearch,
        beginsWithKey_append_iff key.property other.property hstop, ← Subtype.ext_iff,
        and_iff_right rfl, hfield, or_iff_right hescaped]

theorem mentions_spell_iff (key : Key) (segments : List (Segment Key)) :
    mentions (spell Subtype.val segments) key.val = true
      ↔ key ∈ keysOf segments ∨ Feigned key segments := by
  induction segments with
  | nil =>
      rw [spell, List.flatMap_nil, mentions_nil]
      constructor
      · intro h
        cases h
      · rintro (hused | hfeigned)
        · cases hused
        · cases hfeigned
  | cons segment segments ih =>
      have hkeys : key ∈ keysOf (segment :: segments)
          ↔ (∃ spec, segment = .field key spec) ∨ key ∈ keysOf segments := by
        simp only [mem_keysOf, List.mem_cons, exists_or, @eq_comm _ segment]
      rw [spell, List.flatMap_cons, mentions_segment_iff, ← spell, ih, hkeys, feigned_cons_iff,
        spell, String.toList_ofList, or_or_or_comm, or_assoc]

/-! ## Fields that are passed -/

/-- The search for the placeholders of a well-formed template finds the keys that are used and those
that are feigned. The declared fields among them are passed, in the order of their declaration and
each from the field of its name. So no field is passed for nothing exactly if each declared field
that is feigned is used as well. -/
theorem mentions_iff_used_or_feigned (segments : List (Segment Key)) :
    let message := spell Subtype.val segments
    (∀ key : Key, mentions message key.val = true ↔ key ∈ keysOf segments ∨ Feigned key segments)
      ∧ ∀ (names : List Key) (variant : String), ∃ passed : List Key,
        passed.Sublist names
          ∧ (∀ key, key ∈ passed ↔ key ∈ names ∧ (key ∈ keysOf segments ∨ Feigned key segments))
          ∧ Write.ofStruct (.named (names.map Subtype.val)) message
            = { message
                values := some (passed.map fun key => ⟨key.val, .member key.val⟩) }
          ∧ Arm.ofVariant variant (.named (names.map Subtype.val)) message
            = { variant
                pattern := .named (passed.map Subtype.val)
                write :=
                  { message
                    values := some (passed.map fun key => ⟨key.val, .bound key.val⟩) } }
          ∧ ((∀ key ∈ passed, key ∈ keysOf segments)
              ↔ ∀ key ∈ names, Feigned key segments → key ∈ keysOf segments) := by
  intro message
  have hsearch : ∀ key : Key,
      mentions message key.val = true ↔ key ∈ keysOf segments ∨ Feigned key segments :=
    fun key => mentions_spell_iff key segments
  refine ⟨hsearch, fun names variant => ?_⟩
  have hpassed : ∀ key, key ∈ names.filter (fun key => mentions message key.val)
      ↔ key ∈ names ∧ (key ∈ keysOf segments ∨ Feigned key segments) := by
    intro key
    rw [List.mem_filter, hsearch]
  refine ⟨names.filter fun key => mentions message key.val, List.filter_sublist, hpassed,
    ?_, ?_, ?_⟩
  · rw [Write.ofStruct, List.filter_map, List.map_map]
    rfl
  · rw [Arm.ofVariant, List.filter_map, List.map_map]
    rfl
  · simp only [hpassed]
    constructor
    · intro h key hname hfeigned
      exact h key ⟨hname, .inr hfeigned⟩
    · rintro h key ⟨hname, hused | hfeigned⟩
      · exact hused
      · exact h key hname hfeigned

/-- Text between escaped braces that looks like a placeholder and is none. -/
theorem mentions_ne_used_of_escaped :
    let key : Key := ⟨"a", by decide⟩
    let segments : List (Segment Key) :=
      [.escaped openBrace rfl, .plain 'a' rfl, .escaped closeBrace rfl]
    spell Subtype.val segments = "\x7b\x7ba\x7d\x7d"
      ∧ fragments "\x7b\x7ba\x7d\x7d".toList
        = some [.literal openBrace, .literal 'a', .literal closeBrace]
      ∧ key ∉ keysOf segments
      ∧ mentions "\x7b\x7ba\x7d\x7d" "a" = true
      ∧ Write.ofStruct (.named ["a"]) "\x7b\x7ba\x7d\x7d"
        = { message := "\x7b\x7ba\x7d\x7d", values := some [⟨"a", .member "a"⟩] } := by
  decide +kernel

end RegisterMachine.Derive
