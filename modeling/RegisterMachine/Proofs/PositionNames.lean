import RegisterMachine.Proofs.Templates

/-!
# Positions by name

A template that tells its fields by their positions is rewritten so that it
tells them by name. The rewriting knows less of templates than their writer
does: it looks for opening braces only, and takes for a key whatever stands
before the next closing brace or colon. On a well-formed template that is
enough. One step of it per segment keeps both readers at the same place, also
where braces stand in a row, since the segment before has taken its own braces
with it; what is left in a placeholder after its key has no opening brace.

The display then passes a value for each name it finds in the result. The names
of the placeholders are found there, and names of different positions differ, so
every field that is used comes under its own name, once, and the text is the one
that the positions would have given.
-/

namespace RegisterMachine.Derive

universe u

/-! ## One segment after the other -/

/-- The characters of a template with names for its positions. -/
def renamed (count : Nat) (text : List Char) : List Char :=
  ((pieces text).map (Piece.namePosition count)).flatMap Piece.text

theorem renamed_nil (count : Nat) : renamed count [] = [] := by
  rw [renamed, pieces]
  rfl

theorem pieces_cons {c : Char} (hc : c ≠ openBrace) (rest : List Char) :
    pieces (c :: rest) = .plain c :: pieces rest := by
  rw [pieces.eq_def]
  exact if_neg hc

theorem pieces_doubled (rest : List Char) :
    pieces (openBrace :: openBrace :: rest) = .doubled :: pieces rest := by
  rw [pieces, if_pos rfl, if_pos rfl]

theorem renamed_cons {c : Char} (hc : c ≠ openBrace) (count : Nat) (rest : List Char) :
    renamed count (c :: rest) = c :: renamed count rest := by
  rw [renamed, pieces_cons hc]
  rfl

theorem renamed_append {front : List Char} (hfront : ∀ c ∈ front, c ≠ openBrace) (count : Nat)
    (rest : List Char) : renamed count (front ++ rest) = front ++ renamed count rest := by
  induction front with
  | nil => rfl
  | cons c front ih =>
      obtain ⟨hc, hfront⟩ := List.forall_mem_cons.1 hfront
      rw [List.cons_append, renamed_cons hc, ih hfront]
      rfl

theorem renamed_doubled (count : Nat) (rest : List Char) :
    renamed count (openBrace :: openBrace :: rest)
      = openBrace :: openBrace :: renamed count rest := by
  rw [renamed, pieces_doubled]
  rfl

theorem pieces_opened {rest : List Char} (hrest : rest.head? ≠ some openBrace) :
    pieces (openBrace :: rest)
      = .opened (rest.takeWhile isKeyChar) :: pieces (rest.dropWhile isKeyChar) := by
  cases rest with
  | nil =>
      rw [pieces, if_pos rfl, List.dropWhile_nil, pieces]
      rfl
  | cons d rest =>
      have hd : d ≠ openBrace := fun hopen => hrest (congrArg some hopen)
      rw [pieces, if_pos rfl, if_neg hd]

theorem ne_openBrace_of_ends {stop : Char} (hstop : isKeyChar stop = false) : stop ≠ openBrace := by
  rintro rfl
  exact absurd hstop (by decide)

theorem renamed_open {rest : List Char} (hrest : rest.head? ≠ some openBrace) (count : Nat) :
    renamed count (openBrace :: rest)
      = openBrace :: (keyName count (rest.takeWhile isKeyChar)
        ++ renamed count (rest.dropWhile isKeyChar)) := by
  rw [renamed, pieces_opened hrest]
  rfl

theorem renamed_opened {key : String} (hkey : IsKey key) {stop : Char}
    (hstop : isKeyChar stop = false) (count : Nat) (rest : List Char) :
    renamed count (openBrace :: (key.toList ++ stop :: rest))
      = openBrace :: (keyName count key.toList ++ renamed count (stop :: rest)) := by
  have hchar : ∀ c ∈ key.toList, isKeyChar c = true := by
    intro c hc
    obtain ⟨hbrace, hcolon⟩ := hkey c hc
    have hclose : c ≠ closeBrace := by
      rintro rfl
      exact absurd hbrace (by decide)
    rw [isKeyChar, bne_iff_ne.2 hclose, bne_iff_ne.2 hcolon]
    rfl
  have hrest : (key.toList ++ stop :: rest).head? ≠ some openBrace :=
    head?_append_stop (fun c hc => (hkey c hc).1) (ne_openBrace_of_ends hstop) rest
  rw [renamed_open hrest, takeWhile_append_stop hchar hstop, dropWhile_append_stop hchar hstop]

/-! ## Names of positions -/

/-- The key that tells a field by its position. -/
def positionKey {count : Nat} (i : Fin count) : String :=
  Numeral.ofNat i

/-- The key that tells a field by the name of its position. -/
def nameKey {count : Nat} (i : Fin count) : String :=
  positionName i

theorem positionName_injective {i j : Nat} (h : positionName i = positionName j) : i = j := by
  have hdigits : Numeral.ofNat i = Numeral.ofNat j := (String.append_right_inj _).1 h
  have hread := Numeral.natural?_ofNat i
  rw [hdigits, Numeral.natural?_ofNat j] at hread
  exact (Option.some.inj hread).symm

theorem toList_positionName (i : Nat) :
    (positionName i).toList = 'f' :: (Numeral.ofNat i).toList := by
  rw [positionName, String.toList_append]
  rfl

theorem isKey_of_isDigit {key : String} (hdigits : ∀ c ∈ key.toList, c.isDigit = true) :
    IsKey key := by
  intro c hc
  have hbrace : c ≠ openBrace ∧ c ≠ closeBrace ∧ c ≠ ':' := by
    refine ⟨?_, ?_, ?_⟩ <;> rintro rfl <;> exact absurd (hdigits _ hc) (by decide)
  rw [isBrace, beq_false_of_ne hbrace.1, beq_false_of_ne hbrace.2.1]
  exact ⟨rfl, hbrace.2.2⟩

theorem isKey_positionKey {count : Nat} (i : Fin count) : IsKey (positionKey i) :=
  isKey_of_isDigit fun _ => Numeral.isDigit_of_mem_ofNat

theorem isKey_nameKey {count : Nat} (i : Fin count) : IsKey (nameKey i) := by
  intro c hc
  rw [nameKey, toList_positionName] at hc
  rcases List.mem_cons.1 hc with rfl | hc
  · decide
  · exact isKey_positionKey i c hc

variable {arity : UInt64}

theorem keyName_positionKey (i : Fin arity.toNat) :
    keyName arity.toNat (positionKey i).toList = (nameKey i).toList := by
  have hword : (UInt64.ofNat i).toNat = i :=
    UInt64.toNat_ofNat_of_lt (Nat.lt_trans i.isLt arity.toNat_lt)
  have hread : Numeral.unsigned? (positionKey i).toList = some (UInt64.ofNat i) := by
    rw [positionKey, ← hword, Numeral.unsigned?_ofNat, hword]
  have hposition : isPosition arity.toNat (positionKey i).toList = true := by
    rw [isPosition, hread]
    refine decide_eq_true ?_
    rw [hword]
    exact i.isLt
  rw [keyName, hposition, nameKey, toList_positionName]
  rfl

theorem ne_openBrace {c : Char} (hc : isBrace c = false) : c ≠ openBrace := by
  rintro rfl
  exact absurd hc (by decide)

/-- What follows a key in its placeholder ends the key and opens nothing. -/
theorem exists_stop (spec : Option Spec) :
    ∃ stop after, specText spec ++ [closeBrace] = stop :: after ∧ isKeyChar stop = false
      ∧ ∀ c ∈ stop :: after, c ≠ openBrace := by
  have hbare : ∀ c ∈ specText spec ++ [closeBrace], c ≠ openBrace := by
    intro c hc
    rcases List.mem_append.1 hc with hspec | hclose
    · exact ne_openBrace (braceless_specText spec c hspec)
    · rw [List.mem_singleton.1 hclose]
      decide
  cases spec with
  | none => exact ⟨closeBrace, [], rfl, rfl, hbare⟩
  | some spec => exact ⟨':', spec.text.toList ++ [closeBrace], rfl, rfl, hbare⟩

theorem renamed_segment (segment : Segment (Fin arity.toNat)) (rest : List Char) :
    renamed arity.toNat (segment.text positionKey ++ rest)
      = segment.text nameKey ++ renamed arity.toNat rest := by
  cases segment with
  | plain c hc => exact renamed_cons (ne_openBrace hc) _ rest
  | escaped c hc =>
      -- opening braces are taken two at a time; closing ones are not looked at
      rcases Bool.or_eq_true _ _ ▸ hc with hopen | hclose
      · rw [beq_iff_eq] at hopen
        subst hopen
        exact renamed_doubled _ rest
      · rw [beq_iff_eq] at hclose
        subst hclose
        have hbare : closeBrace ≠ openBrace := by decide
        show renamed _ (closeBrace :: closeBrace :: rest)
          = closeBrace :: closeBrace :: renamed _ rest
        rw [renamed_cons hbare, renamed_cons hbare]
  | field i spec =>
      obtain ⟨stop, after, hafter, hstop, hbare⟩ := exists_stop spec
      have hopened := renamed_opened (isKey_positionKey i) hstop arity.toNat (after ++ rest)
      rw [← @List.cons_append _ stop after rest, renamed_append hbare, keyName_positionKey]
        at hopened
      rw [Segment.text, Segment.text, List.append_assoc, List.append_assoc, hafter,
        List.cons_append, List.cons_append, List.append_assoc, List.append_assoc]
      exact hopened

theorem namePositions_spell (segments : List (Segment (Fin arity.toNat))) :
    namePositions arity.toNat (spell positionKey segments) = spell nameKey segments := by
  have hrenamed : renamed arity.toNat (segments.flatMap (Segment.text positionKey))
      = segments.flatMap (Segment.text nameKey) := by
    induction segments with
    | nil =>
        rw [List.flatMap_nil, List.flatMap_nil, renamed_nil]
    | cons segment segments ih =>
        rw [List.flatMap_cons, List.flatMap_cons, renamed_segment, ih]
  rw [namePositions, spell, String.toList_ofList]
  exact congrArg String.ofList hrenamed

/-! ## Fields and the values that are passed for them -/

section Fields

variable {α : Type u} {count : Nat}

/-- The first field whose position passes a test. -/
def fieldAt (fields : Vector α count) (p : Fin count → Bool) : Option α :=
  ((List.finRange count).find? p).map (fields[·])

/-- The field that has a key when the positions have these keys. -/
def keyed (name : Fin count → String) (fields : Vector α count) (key : String) : Option α :=
  fieldAt fields (name · == key)

/-- The field that a value is taken from, where the variables of a pattern stand at the places of
their fields. -/
def Value.field? (bindings : List (Option String)) (fields : Vector α count) : Value → Option α
  | bound name => fieldAt fields fun i => bindings[i.val]? == some (some name)
  | member name => keyed positionKey fields name

theorem fieldAt_of_unique (fields : Vector α count) {p : Fin count → Bool} {i : Fin count}
    (hi : p i = true) (hunique : ∀ j, p j = true → j = i) : fieldAt fields p = some fields[i] := by
  have hfind : (List.finRange count).find? p = some i := by
    cases hfound : (List.finRange count).find? p with
    | none => exact absurd hi (List.find?_eq_none.1 hfound i (List.mem_finRange i))
    | some j => rw [hunique j (List.find?_some hfound)]
  rw [fieldAt, hfind]
  rfl

theorem keyed_self {name : Fin count → String} (hname : ∀ i j, name i = name j → i = j)
    (fields : Vector α count) (i : Fin count) : keyed name fields (name i) = some fields[i] :=
  fieldAt_of_unique fields (beq_self_eq_true _) fun j hj => hname j i (beq_iff_eq.1 hj)

theorem positionKey_injective (i j : Fin count) (h : positionKey i = positionKey j) : i = j :=
  Fin.ext (positionName_injective (congrArg ("f" ++ ·) h))

theorem nameKey_injective (i j : Fin count) (h : nameKey i = nameKey j) : i = j :=
  Fin.ext (positionName_injective h)

/-- The values that come under a name with a message. -/
def Write.passed (write : Write) (name : String) : List Value :=
  ((write.values.getD []).filter (·.name == name)).map (·.value)

/-- The text of a message with the values that are passed. -/
def Write.display (bindings : List (Option String)) (fields : Vector α count)
    (format : Option String → α → String) (write : Write) : Option String :=
  render (fun name => (write.passed name).head?.bind (Value.field? bindings fields)) format
    write.message

end Fields

/-- The values for some positions, each under its name. -/
def passing (source : Nat → Value) (positions : List Nat) : List NamedValue :=
  positions.map fun i => { name := positionName i, value := source i }

/-- Fields are passed by the names of their positions, in increasing order, and each used one is
passed exactly once. -/
structure Write.PassesFields (write : Write) (source : Nat → Value) (used : List Nat) : Prop where
  increasing : ∃ positions : List Nat,
    positions.Pairwise (· < ·) ∧ write.values = some (passing source positions)
  once : ∀ i ∈ used, write.passed (positionName i) = [source i]

theorem passed_of_mem {write : Write} {source : Nat → Value} {positions : List Nat}
    (hvalues : write.values = some (passing source positions)) (hnodup : positions.Nodup)
    {i : Nat} (hi : i ∈ positions) : write.passed (positionName i) = [source i] := by
  have hsame : ∀ j ∈ positions, (positionName j == positionName i) = (j == i) := by
    intro j _
    rw [Bool.eq_iff_iff, beq_iff_eq, beq_iff_eq]
    exact ⟨positionName_injective, congrArg positionName⟩
  rw [Write.passed, hvalues, Option.getD_some, passing, List.filter_map, Function.comp_def,
    List.filter_congr hsame, List.filter_beq, hnodup.count, if_pos hi]
  rfl

section Tuples

variable {segments : List (Segment (Fin arity.toNat))}

theorem mem_mentionedPositions {i : Fin arity.toNat} (hi : i ∈ keysOf segments) :
    i.val ∈ mentionedPositions (spell nameKey segments) arity.toNat :=
  List.mem_filter.2 ⟨List.mem_range.2 i.isLt, mentions_spell hi⟩

theorem passesFields_of_mentioned {write : Write} {source : Nat → Value}
    (hvalues : write.values
      = some (passing source (mentionedPositions (spell nameKey segments) arity.toNat))) :
    write.PassesFields source ((keysOf segments).map Fin.val) := by
  have hincreasing : (mentionedPositions (spell nameKey segments) arity.toNat).Pairwise (· < ·) :=
    List.pairwise_lt_range.filter _
  refine ⟨⟨_, hincreasing, hvalues⟩, fun i hi => ?_⟩
  obtain ⟨i, hused, rfl⟩ := List.mem_map.1 hi
  exact passed_of_mem hvalues (hincreasing.imp Nat.ne_of_lt) (mem_mentionedPositions hused)

theorem display_of_passesFields {α : Type u} {write : Write} {source : Nat → Value}
    (hmessage : write.message = spell nameKey segments)
    (hpasses : write.PassesFields source ((keysOf segments).map Fin.val))
    {bindings : List (Option String)} {fields : Vector α arity.toNat}
    (hsource : ∀ i ∈ keysOf segments, (source i).field? bindings fields = some fields[i])
    (format : Option String → α → String) :
    write.display bindings fields format
      = some (written (fun i => fields[i]) format segments) := by
  rw [Write.display, hmessage]
  refine render_spell format isKey_nameKey fun i hi => ?_
  have honce : write.passed (nameKey i) = [source i] := hpasses.once i (List.mem_map_of_mem hi)
  rw [honce]
  exact hsource i hi

theorem ofStruct_tuple :
    Write.ofStruct (.tuple arity.toNat) (spell positionKey segments) =
      { message := spell nameKey segments
        values := some (passing (fun i => .member (Numeral.ofNat i))
          (mentionedPositions (spell nameKey segments) arity.toNat)) } := by
  rw [Write.ofStruct, namePositions_spell]
  rfl

/-- The variables in the pattern of a variant with so many fields by position. -/
def tupleBindings (template : String) (count : Nat) : List (Option String) :=
  (List.range count).map fun i =>
    if mentions template (positionName i) then some (positionName i) else none

theorem ofVariant_tuple (variant : String) :
    Arm.ofVariant variant (.tuple arity.toNat) (spell positionKey segments) =
      { variant
        pattern := .tuple (tupleBindings (spell nameKey segments) arity.toNat)
        write :=
          { message := spell nameKey segments
            values := some (passing (fun i => .bound (positionName i))
              (mentionedPositions (spell nameKey segments) arity.toNat)) } } := by
  rw [Arm.ofVariant, namePositions_spell]
  rfl

theorem getElem?_tupleBindings_iff {template name : String} {count j : Nat} :
    (tupleBindings template count)[j]? = some (some name)
      ↔ j ∈ mentionedPositions template count ∧ positionName j = name := by
  rw [tupleBindings, List.getElem?_map, mentionedPositions, List.mem_filter, List.mem_range]
  by_cases hj : j < count
  · rw [List.getElem?_range hj, Option.map_some, Option.some.injEq]
    by_cases hmentioned : mentions template (positionName j) = true
    · rw [if_pos hmentioned, Option.some.injEq, and_iff_right ⟨hj, hmentioned⟩]
    · rw [if_neg hmentioned]
      exact ⟨nofun, fun h => absurd h.1.2 hmentioned⟩
  · rw [List.getElem?_eq_none (by rw [List.length_range]; exact Nat.not_lt.1 hj)]
    exact ⟨nofun, fun h => absurd h.1.1 hj⟩

theorem getElem?_tupleBindings {i : Fin arity.toNat} (hi : i ∈ keysOf segments) (j : Nat) :
    (tupleBindings (spell nameKey segments) arity.toNat)[j]? = some (some (positionName i))
      ↔ j = i := by
  rw [getElem?_tupleBindings_iff]
  constructor
  · rintro ⟨-, hname⟩
    exact positionName_injective hname
  · rintro rfl
    exact ⟨mem_mentionedPositions hi, rfl⟩

theorem field?_bound {α : Type u} (fields : Vector α arity.toNat) {i : Fin arity.toNat}
    (hi : i ∈ keysOf segments) :
    Value.field? (tupleBindings (spell nameKey segments) arity.toNat) fields
      (.bound (positionName i)) = some fields[i] := by
  refine fieldAt_of_unique fields ?_ fun j hj => ?_
  · exact beq_iff_eq.2 ((getElem?_tupleBindings hi i).2 rfl)
  · exact Fin.ext ((getElem?_tupleBindings hi j).1 (beq_iff_eq.1 hj))

/-- Naming the positions of a well-formed template changes its keys and nothing of what it says. The
display derived from it passes each field that it uses by name, once, and so says the same too. -/
theorem namePositions_keeps_meaning {α : Type u} (segments : List (Segment (Fin arity.toNat)))
    (fields : Vector α arity.toNat) (format : Option String → α → String) (variant : String) :
    let positional := spell positionKey segments
    let named := spell nameKey segments
    let text := written (fun i => fields[i]) format segments
    let used := (keysOf segments).map Fin.val
    let write := Write.ofStruct (.tuple arity.toNat) positional
    let arm := Arm.ofVariant variant (.tuple arity.toNat) positional
    namePositions arity.toNat positional = named
      ∧ render (keyed positionKey fields) format positional = some text
      ∧ render (keyed nameKey fields) format named = some text
      ∧ (write.message = named
        ∧ write.PassesFields (fun i => .member (Numeral.ofNat i)) used
        ∧ write.display [] fields format = some text)
      ∧ arm.write.message = named
        ∧ arm.write.PassesFields (fun i => .bound (positionName i)) used
        ∧ ∃ bindings, arm.pattern = .tuple bindings ∧ bindings.length = arity.toNat
          ∧ (∀ i ∈ used, ∀ j, bindings[j]? = some (some (positionName i)) ↔ j = i)
          ∧ arm.write.display bindings fields format = some text := by
  intro positional named text used write arm
  have hwrite : write = _ := ofStruct_tuple
  have harm : arm = _ := ofVariant_tuple variant
  have hstruct : write.PassesFields (fun i => .member (Numeral.ofNat i)) used :=
    passesFields_of_mentioned (congrArg Write.values hwrite)
  have hvariant : arm.write.PassesFields (fun i => .bound (positionName i)) used :=
    passesFields_of_mentioned (congrArg (·.write.values) harm)
  have hwriteMessage : write.message = named := congrArg Write.message hwrite
  have harmMessage : arm.write.message = named := congrArg (·.write.message) harm
  refine ⟨namePositions_spell segments, ?_, ?_, ⟨hwriteMessage, hstruct, ?_⟩,
    harmMessage, hvariant, tupleBindings named arity.toNat, congrArg Arm.pattern harm, ?_, ?_, ?_⟩
  · exact render_spell format isKey_positionKey fun i _ => keyed_self positionKey_injective fields i
  · exact render_spell format isKey_nameKey fun i _ => keyed_self nameKey_injective fields i
  · exact display_of_passesFields hwriteMessage hstruct
      (fun i _ => keyed_self positionKey_injective fields i) format
  · rw [tupleBindings, List.length_map, List.length_range]
  · intro i hi
    obtain ⟨i, hused, rfl⟩ := List.mem_map.1 hi
    exact getElem?_tupleBindings hused
  · exact display_of_passesFields harmMessage hvariant (fun i hi => field?_bound fields hi) format

example : namePositions 2 "\x7b\x7b\x7b0\x7d\x7d\x7d \x7b1:>4\x7d"
    = "\x7b\x7b\x7bf0\x7d\x7d\x7d \x7bf1:>4\x7d" := by
  decide +kernel

example : (Write.ofStruct (.tuple 2) "\x7b\x7b\x7b0\x7d\x7d\x7d \x7b1:>4\x7d").display []
    #v["a", "b"] (fun spec value => value ++ spec.getD "") = some "\x7ba\x7d b>4" := by
  decide +kernel

end Tuples

end RegisterMachine.Derive
