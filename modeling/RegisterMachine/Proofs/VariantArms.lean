import RegisterMachine.Proofs.PositionNames
import Mathlib.Data.List.Forall2

/-!
# A display is derived as a whole or not at all

What is derived for an enumeration has an arm for each of its variants, in the order
of their declaration, and every variant brings its own message. If one of them has
none, nothing is derived, and the first such variant is the one that is reported.
For the message only one attribute counts, the first that is called `error`, be it
good or bad; so the attributes of the enumeration itself count for nothing, and
neither do those of other names or later ones.

An arm is made of a pattern and of the values that are passed to its message, and
these are worked out apart from one another. They have to fit, since a value that is
passed is a variable of the pattern. `Displays` says how they do: what is passed is
what the pattern binds, from left to right, each under its own name. For fields with
names that is plain. Among fields by position those without a variable have to be
left out on both sides, which the pattern does by a gap and the values by a filter
(`filterMap_tupleBindings`).
-/

namespace RegisterMachine.Derive

section Results

variable {α β : Type} {result : Except DeriveError α} {f : α → β}

theorem map_eq_ok_iff {value : β} :
    result.map f = .ok value ↔ ∃ a, result = .ok a ∧ value = f a := by
  cases result <;> simp [Except.map, eq_comm]

theorem map_eq_error_iff {fault : DeriveError} :
    result.map f = .error fault ↔ result = .error fault := by
  cases result <;> simp [Except.map]

end Results

/-! ## The message -/

/-- The first attribute that is called `error` has this argument. -/
inductive FirstError : List Attribute → Argument → Prop
  | intro {front back : List Attribute} {argument : Argument}
      (hfront : ∀ earlier ∈ front, earlier.name ≠ "error") :
      FirstError (front ++ ⟨"error", argument⟩ :: back) argument

/-- The attributes give a message, as a single text. -/
def Gives (attributes : List Attribute) (message : String) : Prop :=
  FirstError attributes (.listed [.text message])

/-- The attributes give no message, and this is said of them. -/
inductive Lacks (attributes : List Attribute) : String → Prop
  | missing (hnone : ∀ entry ∈ attributes, entry.name ≠ "error") :
      Lacks attributes "missing #[error(\"...\")] attribute; every error needs a display message"
  | malformed {argument : Argument} (hfirst : FirstError attributes argument)
      (hargument : ∀ message, argument ≠ .listed [.text message]) :
      Lacks attributes
        "expected a string literal, e.g. #[error(\"undefined label: \x7blabel\x7d\")]"

variable {attributes : List Attribute} {message : String} {fault : DeriveError}

theorem find?_error_eq_none_iff :
    attributes.find? (·.name == "error") = none ↔ ∀ entry ∈ attributes, entry.name ≠ "error" := by
  simp only [List.find?_eq_none, beq_iff_eq, ne_eq]

theorem find?_error_eq_some_iff {argument : Argument} :
    attributes.find? (·.name == "error") = some ⟨"error", argument⟩
      ↔ FirstError attributes argument := by
  simp only [List.find?_eq_some_iff_append, beq_self_eq_true, true_and, Bool.not_eq_true',
    beq_eq_false_iff_ne]
  constructor
  · rintro ⟨front, back, rfl, hfront⟩
    exact .intro hfront
  · rintro ⟨hfront⟩
    exact ⟨_, _, rfl, hfront⟩

theorem Gives.messageOf (h : Gives attributes message) : messageOf attributes = .ok message := by
  rw [Derive.messageOf, find?_error_eq_some_iff.2 h]

theorem Lacks.messageOf {text : String} (h : Lacks attributes text) :
    ∃ fault, messageOf attributes = .error fault ∧ fault.message = text := by
  cases h with
  | missing hnone =>
      exact ⟨.missingMessage, by rw [Derive.messageOf, find?_error_eq_none_iff.2 hnone], rfl⟩
  | malformed hfirst hargument =>
      refine ⟨.malformedMessage, ?_, rfl⟩
      rw [Derive.messageOf, find?_error_eq_some_iff.2 hfirst]
      split
      · contradiction
      · -- a text alone, which the argument is not
        rename_i heq
        cases heq
        exact absurd rfl (hargument _)
      · rfl

theorem gives_or_lacks (attributes : List Attribute) :
    (∃ message, Gives attributes message) ∨ ∃ text, Lacks attributes text := by
  cases hfind : attributes.find? (·.name == "error") with
  | none => exact .inr ⟨_, .missing (find?_error_eq_none_iff.1 hfind)⟩
  | some entry =>
      obtain ⟨name, argument⟩ := entry
      obtain rfl : name = "error" := by simpa using List.find?_some hfind
      have hfirst : FirstError attributes argument := find?_error_eq_some_iff.1 hfind
      by_cases htext : ∃ message, argument = .listed [.text message]
      · obtain ⟨message, rfl⟩ := htext
        exact .inl ⟨message, hfirst⟩
      · exact .inr ⟨_, .malformed hfirst (not_exists.1 htext)⟩

theorem not_lacks_iff :
    (∀ text, ¬ Lacks attributes text) ↔ ∃ message, Gives attributes message := by
  constructor
  · intro h
    exact (gives_or_lacks attributes).resolve_right fun ⟨text, hlacks⟩ => h text hlacks
  · rintro ⟨message, hgives⟩ text hlacks
    obtain ⟨fault, hfault, -⟩ := hlacks.messageOf
    cases hgives.messageOf.symm.trans hfault

theorem DeriveError.message_injective {fault other : DeriveError}
    (h : fault.message = other.message) : fault = other := by
  cases fault <;> cases other <;> first | rfl | exact absurd h (by decide)

theorem messageOf_eq_ok_iff : messageOf attributes = .ok message ↔ Gives attributes message := by
  refine ⟨fun h => ?_, Gives.messageOf⟩
  rcases gives_or_lacks attributes with ⟨given, hgives⟩ | ⟨text, hlacks⟩
  · cases hgives.messageOf.symm.trans h
    exact hgives
  · obtain ⟨fault, hfault, -⟩ := hlacks.messageOf
    cases hfault.symm.trans h

theorem messageOf_eq_error_iff :
    messageOf attributes = .error fault ↔ Lacks attributes fault.message := by
  constructor
  · intro h
    rcases gives_or_lacks attributes with ⟨given, hgives⟩ | ⟨text, hlacks⟩
    · cases hgives.messageOf.symm.trans h
    · obtain ⟨other, hother, rfl⟩ := hlacks.messageOf
      cases hother.symm.trans h
      exact hlacks
  · intro hlacks
    obtain ⟨other, hother, hsame⟩ := hlacks.messageOf
    rw [hother, DeriveError.message_injective hsame]

/-! ## One arm -/

/-- The variables of a pattern, each passed under its own name. -/
def passingBound (names : List String) : List NamedValue :=
  names.map fun name => { name, value := .bound name }

/-- An arm fits its variant: it has the variant's name and message, and what it passes is what its
pattern binds. -/
inductive Displays : Variant → Arm → Prop
  | unit {name : String} {attributes : List Attribute} {message : String}
      (hgives : Gives attributes message) :
      Displays ⟨name, attributes, .unit⟩ ⟨name, .unit, ⟨message, none⟩⟩
  | tuple {name : String} {attributes : List Attribute} {message template : String} {count : Nat}
      {bindings : List (Option String)} (hgives : Gives attributes message)
      (htemplate : template = namePositions count message) (hlength : bindings.length = count)
      (hbindings : ∀ i < count, bindings[i]?
        = some (if mentions template (positionName i) then some (positionName i) else none)) :
      Displays ⟨name, attributes, .tuple count⟩
        ⟨name, .tuple bindings, ⟨template, some (passingBound (bindings.filterMap id))⟩⟩
  | named {name : String} {attributes : List Attribute} {message : String}
      {fields used : List String} (hgives : Gives attributes message)
      (hused : used = fields.filter (mentions message)) :
      Displays ⟨name, attributes, .named fields⟩
        ⟨name, .named used, ⟨message, some (passingBound used)⟩⟩

/-- The variables of a pattern over positions, without its gaps, are the positions that are
mentioned. -/
theorem filterMap_tupleBindings (template : String) (count : Nat) :
    (tupleBindings template count).filterMap id
      = (mentionedPositions template count).map positionName := by
  rw [tupleBindings, mentionedPositions, List.filterMap_map]
  induction List.range count with
  | nil => rfl
  | cons i positions ih =>
      rw [List.filterMap_cons, List.filter_cons, ih]
      by_cases hi : mentions template (positionName i) = true <;> simp [hi]

theorem length_tupleBindings (template : String) (count : Nat) :
    (tupleBindings template count).length = count := by
  rw [tupleBindings, List.length_map, List.length_range]

theorem getElem?_tupleBindings_of_lt (template : String) {count i : Nat} (hi : i < count) :
    (tupleBindings template count)[i]?
      = some (if mentions template (positionName i) then some (positionName i) else none) := by
  rw [tupleBindings, List.getElem?_map, List.getElem?_range hi, Option.map_some]

theorem eq_tupleBindings {template : String} {count : Nat} {bindings : List (Option String)}
    (hlength : bindings.length = count)
    (hbindings : ∀ i < count, bindings[i]?
      = some (if mentions template (positionName i) then some (positionName i) else none)) :
    bindings = tupleBindings template count := by
  refine List.ext_getElem? fun i => ?_
  by_cases hi : i < count
  · rw [hbindings i hi, getElem?_tupleBindings_of_lt template hi]
  · have hend : bindings.length ≤ i := hlength ▸ Nat.not_lt.1 hi
    rw [List.getElem?_eq_none hend, List.getElem?_eq_none]
    rwa [length_tupleBindings, ← hlength]

theorem ofVariant_tuple_eq (variant : String) (count : Nat) (message : String) :
    Arm.ofVariant variant (.tuple count) message =
      let bindings := tupleBindings (namePositions count message) count
      ⟨variant, .tuple bindings,
        ⟨namePositions count message, some (passingBound (bindings.filterMap id))⟩⟩ := by
  show _ = Arm.mk _ _ (Write.mk _ (some (passingBound ((tupleBindings _ _).filterMap id))))
  rw [filterMap_tupleBindings, passingBound, List.map_map]
  rfl

theorem displays_iff {variant : Variant} {arm : Arm} :
    Displays variant arm ↔ ∃ message, Gives variant.attributes message
      ∧ Arm.ofVariant variant.name variant.fields message = arm := by
  constructor
  · intro h
    cases h with
    | unit hgives => exact ⟨_, hgives, rfl⟩
    | tuple hgives htemplate hlength hbindings =>
        subst htemplate
        exact ⟨_, hgives, by rw [ofVariant_tuple_eq, ← eq_tupleBindings hlength hbindings]⟩
    | named hgives hused =>
        subst hused
        exact ⟨_, hgives, rfl⟩
  · obtain ⟨name, attributes, fields⟩ := variant
    rintro ⟨message, hgives, rfl⟩
    cases fields with
    | unit => exact .unit hgives
    | tuple count =>
        rw [ofVariant_tuple_eq]
        exact .tuple hgives rfl (length_tupleBindings _ count) fun i hi =>
          getElem?_tupleBindings_of_lt _ hi
    | named fields => exact .named hgives rfl

theorem Displays.not_lacks {variant : Variant} {arm : Arm} (h : Displays variant arm)
    (text : String) : ¬ Lacks variant.attributes text := by
  obtain ⟨message, hgives, -⟩ := displays_iff.1 h
  exact not_lacks_iff.2 ⟨message, hgives⟩ text

/-! ## One arm after the other -/

theorem armsOf_cons_of_error {variant : Variant} (variants : List Variant)
    (h : messageOf variant.attributes = .error fault) :
    armsOf (variant :: variants) = .error fault := by
  rw [armsOf, List.mapM_cons, h]
  rfl

theorem armsOf_cons_of_ok {variant : Variant} (variants : List Variant)
    (h : messageOf variant.attributes = .ok message) :
    armsOf (variant :: variants)
      = (armsOf variants).map (Arm.ofVariant variant.name variant.fields message :: ·) := by
  rw [armsOf, List.mapM_cons, h]
  rfl

theorem armsOf_cons_eq_ok_iff {variant : Variant} {variants : List Variant} {all : List Arm} :
    armsOf (variant :: variants) = .ok all
      ↔ ∃ arm arms, Displays variant arm ∧ armsOf variants = .ok arms ∧ all = arm :: arms := by
  -- In this form both sides say what the message is, and it can be told which it is.
  simp only [displays_iff, ← messageOf_eq_ok_iff]
  cases hmessage : messageOf variant.attributes with
  | error fault =>
      rw [armsOf_cons_of_error variants hmessage]
      exact ⟨nofun, nofun⟩
  | ok message =>
      rw [armsOf_cons_of_ok variants hmessage, map_eq_ok_iff]
      constructor
      · rintro ⟨arms, harms, hall⟩
        exact ⟨_, arms, ⟨message, rfl, rfl⟩, harms, hall⟩
      · rintro ⟨_, arms, ⟨_, ⟨⟩, rfl⟩, harms, hall⟩
        exact ⟨arms, harms, hall⟩

theorem armsOf_cons_eq_error_iff {variant : Variant} {variants : List Variant} :
    armsOf (variant :: variants) = .error fault
      ↔ Lacks variant.attributes fault.message
        ∨ (∀ text, ¬ Lacks variant.attributes text) ∧ armsOf variants = .error fault := by
  rw [not_lacks_iff]
  simp only [← messageOf_eq_error_iff, ← messageOf_eq_ok_iff]
  cases hmessage : messageOf variant.attributes with
  | error other =>
      rw [armsOf_cons_of_error variants hmessage, Except.error.injEq, Except.error.injEq]
      exact ⟨.inl, fun h => h.resolve_right nofun⟩
  | ok message =>
      rw [armsOf_cons_of_ok variants hmessage, map_eq_error_iff]
      exact ⟨fun h => .inr ⟨⟨message, rfl⟩, h⟩, fun h => (h.resolve_left nofun).2⟩

theorem armsOf_eq_ok_iff {variants : List Variant} {arms : List Arm} :
    armsOf variants = .ok arms ↔ List.Forall₂ Displays variants arms := by
  induction variants generalizing arms with
  | nil =>
      rw [List.forall₂_nil_left_iff]
      exact ⟨fun h => (Except.ok.inj h).symm, fun h => congrArg Except.ok h.symm⟩
  | cons variant variants ih =>
      simp only [armsOf_cons_eq_ok_iff, List.forall₂_cons_left_iff, ih]

theorem armsOf_eq_error_iff {variants : List Variant} :
    armsOf variants = .error fault
      ↔ ∃ front variant back, variants = front ++ variant :: back
        ∧ (∀ earlier ∈ front, ∀ text, ¬ Lacks earlier.attributes text)
        ∧ Lacks variant.attributes fault.message := by
  induction variants with
  | nil =>
      refine ⟨nofun, ?_⟩
      rintro ⟨front, variant, back, h, -⟩
      cases front <;> cases h
  | cons first variants ih =>
      rw [armsOf_cons_eq_error_iff, ih]
      constructor
      · rintro (hlacks | ⟨hfirst, front, variant, back, rfl, hfront, hlacks⟩)
        · exact ⟨[], first, variants, rfl, nofun, hlacks⟩
        · exact ⟨first :: front, variant, back, rfl, List.forall_mem_cons.2 ⟨hfirst, hfront⟩,
            hlacks⟩
      · rintro ⟨front, variant, back, h, hfront, hlacks⟩
        cases front with
        | nil =>
            cases h
            exact .inl hlacks
        | cons _ front =>
            cases h
            obtain ⟨hfirst, hfront⟩ := List.forall_mem_cons.1 hfront
            exact .inr ⟨hfirst, front, variant, back, rfl, hfront, hlacks⟩

theorem exists_armsOf_eq_error_iff {variants : List Variant} :
    (∃ fault, armsOf variants = .error fault)
      ↔ ∃ variant ∈ variants, ∃ text, Lacks variant.attributes text := by
  constructor
  · rintro ⟨fault, hfault⟩
    obtain ⟨front, variant, back, rfl, -, hlacks⟩ := armsOf_eq_error_iff.1 hfault
    exact ⟨variant, List.mem_append_cons_self, _, hlacks⟩
  · rintro ⟨variant, hvariant, text, hlacks⟩
    cases harms : armsOf variants with
    | error fault => exact ⟨fault, rfl⟩
    | ok arms =>
        have hall : List.Forall₂ (fun variant arm => (∀ text, ¬ Lacks variant.attributes text)
            ∧ Displays variant arm) variants arms :=
          (armsOf_eq_ok_iff.1 harms).imp fun variant arm h => ⟨h.not_lacks, h⟩
        exact absurd hlacks (((List.forall₂_and_left _ _).1 hall).1 variant hvariant text)

/-! ## The whole -/

section Whole

variable (name : String) (parameters : List String) (attributes)

theorem expand_struct (fields : Fields) :
    expand ⟨name, parameters, attributes, .struct fields⟩
      = (messageOf attributes).map fun message =>
        ⟨name, parameters, .single (Write.ofStruct fields message)⟩ := by
  simp only [expand]
  cases messageOf attributes <;> rfl

theorem expand_enum (variants : List Variant) :
    expand ⟨name, parameters, attributes, .enum variants⟩
      = (armsOf variants).map fun arms => ⟨name, parameters, .cases arms⟩ := by
  simp only [expand]
  cases armsOf variants <;> rfl

/-- What is derived of a type has all its arms, or there is nothing and the first place without a
message is reported. Only the first attribute called `error` of a structure or of a variant counts
for that. -/
theorem expand_all_or_nothing :
    (expand ⟨name, parameters, attributes, .union⟩ = .error .union
      ∧ DeriveError.union.message = "Error cannot be derived for unions")
    ∧ (∀ fields : Fields,
      (∀ fault, expand ⟨name, parameters, attributes, .struct fields⟩ = .error fault
        ↔ Lacks attributes fault.message)
      ∧ ∀ expansion, expand ⟨name, parameters, attributes, .struct fields⟩ = .ok expansion
        ↔ ∃ message, Gives attributes message
          ∧ expansion = ⟨name, parameters, .single (Write.ofStruct fields message)⟩)
    ∧ ∀ variants : List Variant,
      ((∃ fault, expand ⟨name, parameters, attributes, .enum variants⟩ = .error fault)
        ↔ ∃ variant ∈ variants, ∃ text, Lacks variant.attributes text)
      ∧ (∀ fault, expand ⟨name, parameters, attributes, .enum variants⟩ = .error fault
        ↔ ∃ front variant back, variants = front ++ variant :: back
          ∧ (∀ earlier ∈ front, ∀ text, ¬ Lacks earlier.attributes text)
          ∧ Lacks variant.attributes fault.message)
      ∧ ∀ expansion, expand ⟨name, parameters, attributes, .enum variants⟩ = .ok expansion
        ↔ ∃ arms, List.Forall₂ Displays variants arms
          ∧ expansion = ⟨name, parameters, .cases arms⟩ := by
  refine ⟨⟨rfl, rfl⟩, fun fields => ?_, fun variants => ?_⟩
  · simp only [expand_struct, map_eq_error_iff, map_eq_ok_iff]
    exact ⟨fun _ => messageOf_eq_error_iff, fun _ => by simp only [messageOf_eq_ok_iff]⟩
  · simp only [expand_enum, map_eq_error_iff, map_eq_ok_iff]
    exact ⟨exists_armsOf_eq_error_iff, fun _ => armsOf_eq_error_iff,
      fun _ => by simp only [armsOf_eq_ok_iff]⟩

end Whole

example : expand
    { name := "Fault", parameters := [], attributes := []
      shape := .enum
        [{ name := "Held", fields := .unit
           attributes := [⟨"doc", .none⟩, ⟨"error", .listed [.text "held"]⟩, ⟨"error", .none⟩] },
         { name := "Bare", attributes := [⟨"error", .assigned "bare"⟩], fields := .unit },
         { name := "Mute", attributes := [], fields := .unit }] }
    = .error .malformedMessage := by
  decide

example : expand
    { name := "Fault", parameters := [], attributes := [⟨"error", .none⟩]
      shape := .enum
        [{ name := "Pair", attributes := [⟨"error", .listed [.text "to \x7b1:?\x7d"]⟩]
           fields := .tuple 2 }] }
    = .ok
      { name := "Fault", parameters := []
        body := .cases
          [{ variant := "Pair", pattern := .tuple [none, some "f1"]
             write :=
              { message := "to \x7bf1:?\x7d"
                values := some [{ name := "f1", value := .bound "f1" }] } }] } := by
  decide +kernel

end RegisterMachine.Derive
