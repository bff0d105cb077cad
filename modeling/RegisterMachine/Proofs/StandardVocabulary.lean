import RegisterMachine.Vocabulary

/-!
# What the standard vocabulary knows

The vocabulary of the instruction catalog is made by entering the seven
mnemonics one after the other. The mnemonics differ and are in lower case
already, so no entry hides another, and a name is known exactly when lowering
its ASCII letters gives a mnemonic. `Opcode.Named` is that relation, and
`find?_standard_eq_some` and `find?_standard_eq_none` say that looking a name
up decides it.
-/

namespace RegisterMachine

/-- A name stands for an opcode when it is the mnemonic in any case. -/
def Opcode.Named (opcode : Opcode) (name : String) : Prop :=
  opcode.mnemonic = Vocabulary.normalize name

/-- The names that stand for an opcode. -/
def IsMnemonic (name : String) : Prop :=
  ∃ opcode : Opcode, opcode.Named name

theorem Opcode.mnemonic_injective {a b : Opcode} (h : a.mnemonic = b.mnemonic) : a = b := by
  have hinj : ∀ a ∈ all, ∀ b ∈ all, a.mnemonic = b.mnemonic → a = b := by decide
  exact hinj a (mem_all a) b (mem_all b) h

theorem Opcode.Named.unique {a b : Opcode} {name : String} (ha : a.Named name)
    (hb : b.Named name) : a = b :=
  mnemonic_injective (Eq.trans ha (Eq.symm hb))

namespace Vocabulary

theorem normalize_mnemonic (opcode : Opcode) : normalize opcode.mnemonic = opcode.mnemonic := by
  have hlower : ∀ o ∈ Opcode.all, o.mnemonic.toList.map Char.toLower = o.mnemonic.toList := by
    decide
  rw [← String.toList_inj, normalize, String.toList_map]
  exact hlower opcode (Opcode.mem_all opcode)

theorem named_mnemonic (opcode : Opcode) : opcode.Named opcode.mnemonic :=
  Eq.symm (normalize_mnemonic opcode)

theorem find?_insert (vocabulary : Vocabulary) (name : String) (mnemonic : Mnemonic)
    (other : String) :
    (vocabulary.insert name mnemonic).find? other =
      if normalize name = normalize other then some mnemonic else vocabulary.find? other := by
  rw [find?, insert, Std.TreeMap.getElem?_insert]
  simp only [Std.compare_eq_iff_eq]
  rfl

theorem find?_enter (vocabulary : Vocabulary) (spelling : String) (format : InstructionFormat)
    (name : String) :
    (vocabulary.enter spelling format).find? name =
      if normalize spelling = normalize name then some ⟨spelling, format⟩
      else vocabulary.find? name :=
  vocabulary.find?_insert spelling ⟨spelling, format⟩ name

theorem find?_enter_of_named {opcode : Opcode} {name : String} (h : opcode.Named name)
    (vocabulary : Vocabulary) :
    (vocabulary.enter opcode.mnemonic opcode.format).find? name
      = some ⟨opcode.mnemonic, opcode.format⟩ := by
  rw [find?_enter, normalize_mnemonic]
  exact if_pos h

theorem find?_enter_of_not_named {opcode : Opcode} {name : String} (h : ¬ opcode.Named name)
    (vocabulary : Vocabulary) :
    (vocabulary.enter opcode.mnemonic opcode.format).find? name = vocabulary.find? name := by
  rw [find?_enter, normalize_mnemonic]
  exact if_neg h

/-! ## The catalog, entered opcode by opcode -/

theorem find?_catalog_of_named {opcode : Opcode} {name : String} (h : opcode.Named name) :
    ∀ (opcodes : List Opcode) (vocabulary : Vocabulary),
      opcode ∈ opcodes ∨ vocabulary.find? name = some ⟨opcode.mnemonic, opcode.format⟩ →
      (opcodes.foldl (fun known o => known.enter o.mnemonic o.format) vocabulary).find? name
        = some ⟨opcode.mnemonic, opcode.format⟩ := by
  intro opcodes
  induction opcodes with
  | nil =>
      rintro vocabulary (hmem | hfind)
      · cases hmem
      · exact hfind
  | cons first rest ih =>
      intro vocabulary hor
      rw [List.foldl_cons]
      by_cases hfirst : first.Named name
      · obtain rfl := h.unique hfirst
        exact ih _ (.inr (find?_enter_of_named h vocabulary))
      · refine ih _ ?_
        rcases hor with hmem | hfind
        · rcases List.mem_cons.1 hmem with rfl | hrest
          · exact absurd h hfirst
          · exact .inl hrest
        · exact .inr ((find?_enter_of_not_named hfirst vocabulary).trans hfind)

theorem find?_catalog_of_not_named {name : String} :
    ∀ (opcodes : List Opcode) (vocabulary : Vocabulary),
      (∀ opcode ∈ opcodes, ¬ opcode.Named name) →
      (opcodes.foldl (fun known o => known.enter o.mnemonic o.format) vocabulary).find? name
        = vocabulary.find? name := by
  intro opcodes
  induction opcodes with
  | nil => intro vocabulary _; rfl
  | cons first rest ih =>
      intro vocabulary h
      rw [List.foldl_cons, ih _ fun opcode hmem => h opcode (List.mem_cons_of_mem _ hmem)]
      exact find?_enter_of_not_named (h first List.mem_cons_self) vocabulary

theorem find?_standard_eq_some {opcode : Opcode} {name : String} (h : opcode.Named name) :
    standard.find? name = some ⟨opcode.mnemonic, opcode.format⟩ :=
  find?_catalog_of_named h Opcode.all empty (.inl (Opcode.mem_all opcode))

theorem find?_standard_eq_none {name : String} (h : ¬ IsMnemonic name) :
    standard.find? name = none := by
  rw [standard, find?_catalog_of_not_named _ _ fun opcode _ hnamed => h ⟨opcode, hnamed⟩]
  exact Std.TreeMap.getElem?_emptyc

theorem contains_standard_iff {name : String} :
    standard.contains name = true ↔ IsMnemonic name := by
  rw [contains]
  constructor
  · intro h
    refine Classical.byContradiction fun hno => ?_
    rw [find?_standard_eq_none hno] at h
    cases h
  · rintro ⟨opcode, hnamed⟩
    rw [find?_standard_eq_some hnamed]
    rfl

end Vocabulary

end RegisterMachine
