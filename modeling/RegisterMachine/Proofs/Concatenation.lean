import RegisterMachine.Proofs.BrokenInput
import RegisterMachine.Proofs.Settling

/-!
# One text after another

Two texts with a line feed between them assemble to the program of the first with
the program of the second behind it, provided that no label is bound in both. The
condition says nothing of the lines that are rejected, and it need not. A label
that is read with an instruction is bound in the end, by this line or by the one
that had it before, so that the first text has bound no label which is read in
the second.

The argument is about two runs over the second text, one from the start and one
behind the first text. `Joins` relates their programs, and a line keeps it: the
same instruction is pushed in both, or refused in both. The lines have other
numbers in the second run, which shows in the reference of a rejected line and
nowhere else (`Akin`).

At the seam the line feed ends a line that was unfinished, which may cost it a
carriage return, or else it makes an empty one. A scanner sees neither.
-/

namespace RegisterMachine

/-! ## Two programs in one -/

namespace Program

/-- One program with another behind it, whose bindings have been moved along. -/
structure Joins (front rest whole : Program) : Prop where
  instructions : whole.instructions = front.instructions ++ rest.instructions
  bindings : whole.labels.bindings
    = front.labels.bindings
      ++ rest.labels.bindings.map fun binding => (binding.1, binding.2 + front.size)

variable {front rest whole : Program} {made : Instruction}

theorem joins_empty (front : Program) : Joins front empty front :=
  ⟨Array.append_empty.symm, (List.append_nil _).symm⟩

theorem Joins.names (h : Joins front rest whole) :
    whole.labels.names = front.labels.names ++ rest.labels.names := by
  simp only [LabelTable.names, h.bindings, List.map_append, List.map_map]
  rfl

theorem Joins.size (h : Joins front rest whole) : whole.size = rest.size + front.size := by
  rw [Program.size, h.instructions, Array.size_append, Nat.add_comm]
  rfl

theorem Joins.taken_iff (h : Joins front rest whole) {label : String}
    (hfree : ¬ Taken front.labels.names label) :
    Taken whole.labels.names label ↔ Taken rest.labels.names label := by
  rw [Taken, Taken, h.names, List.mem_append]
  refine and_congr_right fun hlabel => or_iff_right ?_
  exact fun hmem => hfree ⟨hlabel, hmem⟩

/-- An instruction whose label is free in front is pushed onto both programs, or onto neither. -/
theorem Joins.push (h : Joins front rest whole) (hfree : ¬ Taken front.labels.names made.label) :
    (∃ error, rest.push made = .error error ∧ whole.push made = .error error)
      ∨ ∃ next after, rest.push made = .ok next ∧ whole.push made = .ok after
        ∧ Joins front next after := by
  by_cases htaken : Taken rest.labels.names made.label
  · exact .inl ⟨_, push_of_taken htaken, push_of_taken ((h.taken_iff hfree).2 htaken)⟩
  · obtain ⟨next, hnext, hinstructions, hbindings⟩ := exists_push htaken
    obtain ⟨after, hafter, hinstructionsAfter, hbindingsAfter⟩ :=
      exists_push (mt (h.taken_iff hfree).1 htaken)
    refine .inr ⟨next, after, hnext, hafter, ?_, ?_⟩
    · rw [hinstructionsAfter, hinstructions, h.instructions, Array.push_append]
    · rw [hbindingsAfter, hbindings, h.bindings, h.size, List.map_append, List.append_assoc]
      simp only [Instruction.binding]
      split <;> rfl

end Program

/-! ## One line in two runs -/

instance : Add Tally :=
  ⟨fun first second =>
    ⟨first.instructions + second.instructions, first.rejected + second.rejected⟩⟩

namespace Program.Joins

variable {front : Program} {workspace other : Workspace}

theorem accept (h : Joins front workspace.program other.program) (base tally : Tally)
    (number place : Nat) {reading counterpart : Reading} (hakin : reading.Akin counterpart)
    (hfree : ∀ made, reading = .instruction made → ¬ Taken front.labels.names made.label) :
    let after := workspace.accept tally number reading
    let afterOther := other.accept (base + tally) place counterpart
    Joins front after.1.program afterOther.1.program ∧ afterOther.2 = base + after.2 := by
  cases hakin with
  | rejected error reference otherReference => exact ⟨h, rfl⟩
  | same =>
      cases reading with
      | blank => exact ⟨h, rfl⟩
      | labelOnly label => exact ⟨h, rfl⟩
      | rejected error reference => exact ⟨h, rfl⟩
      | instruction made =>
          obtain ⟨error, hrest, hwhole⟩ | ⟨next, after, hrest, hwhole, hjoins⟩ :=
            h.push (hfree made rfl)
          · simp only [Workspace.accept, hrest, hwhole]
            exact ⟨h, rfl⟩
          · simp only [Workspace.accept, hrest, hwhole]
            exact ⟨hjoins, rfl⟩

end Program.Joins

/-! ## The run over the second text -/

namespace Vocabulary

variable {vocabulary : Vocabulary} {line label : String}

theorem assembleLines_cons (number : Nat) (line : String) (lines : List String)
    (workspace : Workspace) (tally : Tally) :
    vocabulary.assembleLines number (line :: lines) workspace tally
      = vocabulary.assembleLines (number + 1) lines
          (workspace.accept tally number (vocabulary.readLine number line)).1
          (workspace.accept tally number (vocabulary.readLine number line)).2 :=
  rfl

/-- A label that is bound stays bound. -/
theorem mem_names_assembleLines (hlabel : label ≠ "") (lines : List String) :
    ∀ {workspace : Workspace} (number : Nat) (tally : Tally),
      label ∈ workspace.program.labels.names →
      label ∈ (vocabulary.assembleLines number lines workspace tally).1.program.labels.names := by
  induction lines with
  | nil => exact fun _ _ h => h
  | cons line lines ih =>
      intro workspace number tally h
      rw [assembleLines_cons]
      apply ih
      rw [(workspace.accept_settle tally number _).2.1]
      by_contra hfree
      exact ((Reading.not_mem_claim_settle_iff hlabel).1 hfree).1 h

/-- A label that is read with an instruction is bound in the end. -/
theorem mem_names_of_readLine {workspace : Workspace} {number : Nat} {made : Instruction}
    (hread : vocabulary.readLine number line = .instruction made) (hlabel : made.label ≠ "")
    (lines : List String) (tally : Tally) :
    made.label ∈ (vocabulary.assembleLines number (line :: lines) workspace
      tally).1.program.labels.names := by
  rw [assembleLines_cons]
  apply mem_names_assembleLines hlabel
  rw [(workspace.accept_settle tally number _).2.1, hread]
  by_contra hfree
  exact ((Reading.not_mem_claim_settle_iff hlabel).1 hfree).2 made rfl rfl

theorem joins_assembleLines {front : Program} {base : Tally} (lines : List String) :
    ∀ {workspace other : Workspace} {tally : Tally} (number place : Nat),
      front.Joins workspace.program other.program →
      (∀ label ∈ front.labels.names, label
        ∉ (vocabulary.assembleLines number lines workspace tally).1.program.labels.names) →
      let after := vocabulary.assembleLines number lines workspace tally
      let afterOther := vocabulary.assembleLines place lines other (base + tally)
      front.Joins after.1.program afterOther.1.program ∧ afterOther.2 = base + after.2 := by
  induction lines with
  | nil => exact fun _ _ h _ => ⟨h, rfl⟩
  | cons line lines ih =>
      intro workspace other tally number place h hapart
      have hfree : ∀ made, vocabulary.readLine number line = .instruction made →
          ¬ Taken front.labels.names made.label := by
        rintro made hread ⟨hlabel, hmem⟩
        exact hapart made.label hmem (mem_names_of_readLine hread hlabel lines tally)
      obtain ⟨hjoins, htally⟩ := h.accept base tally number place
        (readLine_akin number place line) hfree
      rw [assembleLines_cons, assembleLines_cons, htally]
      exact ih (number + 1) (place + 1) hjoins hapart

theorem assembleLines_append (front rest : List String) :
    ∀ (number : Nat) (workspace : Workspace) (tally : Tally),
      vocabulary.assembleLines number (front ++ rest) workspace tally
        = vocabulary.assembleLines (number + front.length) rest
          (vocabulary.assembleLines number front workspace tally).1
          (vocabulary.assembleLines number front workspace tally).2 := by
  induction front with
  | nil => exact fun number workspace tally => rfl
  | cons line front ih =>
      intro number workspace tally
      rw [List.cons_append, assembleLines_cons, assembleLines_cons, ih, List.length_cons,
        Nat.add_assoc, Nat.add_comm 1]

end Vocabulary

/-! ## The seam -/

namespace Source

theorem exists_seam (first second : List Char) :
    ∃ front last, textLines (first ++ '\n' :: second) = front ++ cutReturn last :: textLines second
      ∧ textLines first = front ++ if last = [] then [] else [last] := by
  have hfirst := List.splitOn_ne_nil '\n' first
  have hsecond := List.splitOn_ne_nil '\n' second
  obtain ⟨pieces, last, hpieces⟩ : ∃ pieces last, first.splitOn '\n' = pieces ++ [last] :=
    ⟨_, _, (List.dropLast_concat_getLast hfirst).symm⟩
  obtain ⟨others, final, hothers⟩ : ∃ others final, second.splitOn '\n' = others ++ [final] :=
    ⟨_, _, (List.dropLast_concat_getLast hsecond).symm⟩
  refine ⟨pieces.map cutReturn, last, ?_, ?_⟩
  · rw [textLines, textLines, List.splitOn_append_cons_self, hpieces, hothers, ← List.append_assoc,
      List.dropLast_concat, List.dropLast_concat, List.getLast?_concat, List.getLast?_concat]
    simp
  · rw [textLines, hpieces, List.dropLast_concat, List.getLast?_concat]
    cases last <;> rfl

end Source

theorem Scanner.ofLine_cutReturn (line : List Char) :
    ofLine (String.ofList (Source.cutReturn line)) = ofLine (String.ofList line) := by
  rw [Source.cutReturn]
  split
  · next hlast =>
      obtain ⟨front, rfl⟩ := List.getLast?_eq_some_iff.1 hlast
      simp [ofLine, isLineEnd]
  · rfl

namespace Vocabulary

variable {vocabulary : Vocabulary}

theorem readLine_cutReturn (number : Nat) (line : List Char) :
    vocabulary.readLine number (String.ofList (Source.cutReturn line))
      = vocabulary.readLine number (String.ofList line) := by
  rw [readLine, readLine, Scanner.ofLine_cutReturn]

/-- The line at the seam does what it did when it was the last, if there was one. -/
theorem assembleLines_seam (number : Nat) (last : List Char) (workspace : Workspace)
    (tally : Tally) :
    vocabulary.assembleLines number [String.ofList (Source.cutReturn last)] workspace tally
      = vocabulary.assembleLines number ((if last = [] then [] else [last]).map String.ofList)
          workspace tally := by
  split
  · next hempty =>
      subst hempty
      rfl
  · simp only [List.map_cons, List.map_nil, assembleLines, readLine_cutReturn]

/-- The workspace and the tally of a text that is assembled in an empty workspace. -/
def assembleText (vocabulary : Vocabulary) (text : String) : Workspace × Tally :=
  vocabulary.assembleLines 1 (Source.ofText text).lines {} {}

/-- Program and tally of a text are the same in every workspace. -/
theorem assemble_eq_assembleText (vocabulary : Vocabulary) (text : String) (workspace : Workspace) :
    (vocabulary.assemble (.ofText text) workspace).1.program
        = (vocabulary.assembleText text).1.program
      ∧ (vocabulary.assemble (.ofText text) workspace).2
        = .ok (vocabulary.assembleText text).2 := by
  have hempty : { ({} : Workspace) with program := .empty } = ({} : Workspace) := rfl
  rw [assemble_followedBy, assemble_ofText, hempty, ← assembleText]
  simp only [Workspace.followedBy, and_self]

theorem joins_assembleText {first second : String}
    (hapart : ∀ label ∈ (vocabulary.assembleText first).1.program.labels.names,
      label ∉ (vocabulary.assembleText second).1.program.labels.names) :
    let front := vocabulary.assembleText first
    let rest := vocabulary.assembleText second
    let whole := vocabulary.assembleText (first ++ "\n" ++ second)
    Program.Joins front.1.program rest.1.program whole.1.program
      ∧ whole.2 = front.2 + rest.2 := by
  obtain ⟨pieces, last, hwhole, hfront⟩ := Source.exists_seam first.toList second.toList
  let front := pieces.map String.ofList ++ [String.ofList (Source.cutReturn last)]
  -- The lines of the first text are read as before, the last of them included.
  have hfirst : vocabulary.assembleLines 1 front {} {} = vocabulary.assembleText first := by
    rw [assembleText, Source.lines_ofText, hfront, List.map_append, assembleLines_append,
      assembleLines_append]
    exact assembleLines_seam _ last _ _
  have hlines : (Source.ofText (first ++ "\n" ++ second)).lines
      = front ++ (Source.ofText second).lines := by
    have htext : (first ++ "\n" ++ second).toList = first.toList ++ '\n' :: second.toList := by
      simp [String.toList_append]
    rw [Source.lines_ofText, Source.lines_ofText, htext, hwhole]
    simp [front]
  have hrun : vocabulary.assembleText (first ++ "\n" ++ second)
      = vocabulary.assembleLines (1 + front.length) (Source.ofText second).lines
          (vocabulary.assembleText first).1 (vocabulary.assembleText first).2 := by
    rw [assembleText, hlines, assembleLines_append, hfirst]
  simp only [hrun]
  exact joins_assembleLines _ 1 _ (Program.joins_empty _) hapart

/-- Whatever the vocabulary, two texts whose programs bind no label in common can be assembled
together, with a line feed between them. The instructions are those of the first and then those of
the second; so are the bindings, with the indices of the second raised by the number of instructions
of the first; and the tallies are added. -/
theorem assemble_concatenated (vocabulary : Vocabulary) {first second : String}
    {here there : Workspace}
    (hapart : ∀ label ∈ (vocabulary.assemble (.ofText first) here).1.program.labels.names,
      label ∉ (vocabulary.assemble (.ofText second) there).1.program.labels.names)
    (workspace : Workspace) :
    let front := vocabulary.assemble (.ofText first) here
    let rest := vocabulary.assemble (.ofText second) there
    let whole := vocabulary.assemble (.ofText (first ++ "\n" ++ second)) workspace
    ∃ tally tallyRest : Tally, front.2 = .ok tally ∧ rest.2 = .ok tallyRest
      ∧ whole.2 = .ok { instructions := tally.instructions + tallyRest.instructions
                        rejected := tally.rejected + tallyRest.rejected }
      ∧ whole.1.program.instructions
        = front.1.program.instructions ++ rest.1.program.instructions
      ∧ whole.1.program.labels.bindings
        = front.1.program.labels.bindings
          ++ rest.1.program.labels.bindings.map fun binding =>
            (binding.1, binding.2 + front.1.program.size) := by
  intro front rest whole
  obtain ⟨hfront, htally⟩ := vocabulary.assemble_eq_assembleText first here
  obtain ⟨hrest, htallyRest⟩ := vocabulary.assemble_eq_assembleText second there
  obtain ⟨hwhole, htallyWhole⟩ :=
    vocabulary.assemble_eq_assembleText (first ++ "\n" ++ second) workspace
  rw [hfront, hrest] at hapart
  obtain ⟨hjoins, hsum⟩ := joins_assembleText hapart
  rw [← hfront, ← hrest, ← hwhole] at hjoins
  exact ⟨_, _, htally, htallyRest, htallyWhole.trans (congrArg Except.ok hsum),
    hjoins.instructions, hjoins.bindings⟩

/-- The line for b is rejected in the first text, and the line for a in the second. -/
theorem assemble_concatenated_rejectedLabels :
    let first := "a out 1\nb out x\nout 9\r"
    let second := "a out one\nb out 2\nb out 3\nout 4"
    let whole := standard.assemble (.ofText (first ++ "\n" ++ second)) {}
    (∀ label ∈ (standard.assemble (.ofText first) {}).1.program.labels.names,
        label ∉ (standard.assemble (.ofText second) {}).1.program.labels.names)
      ∧ whole.2 = .ok { instructions := 2 + 2, rejected := 1 + 2 }
      ∧ whole.1.program.instructions
        = #[⟨"a", .print 1⟩, ⟨"", .print 9⟩] ++ #[⟨"b", .print 2⟩, ⟨"", .print 4⟩]
      ∧ whole.1.program.labels.bindings = [("a", 0)] ++ [("b", 0 + 2)] := by
  intro first second whole
  have hapart : ∀ label ∈ (standard.assemble (.ofText first) {}).1.program.labels.names,
      label ∉ (standard.assemble (.ofText second) {}).1.program.labels.names := by
    decide +kernel
  have hfirst : (standard.assemble (.ofText first) {}).2 = .ok ⟨2, 1⟩ := by decide +kernel
  have hsecond : (standard.assemble (.ofText second) {}).2 = .ok ⟨2, 2⟩ := by decide +kernel
  obtain ⟨tally, tallyRest, htally, htallyRest, hwhole, hinstructions, hbindings⟩ :=
    assemble_concatenated standard hapart {}
  obtain rfl : _ = tally := Except.ok.inj (hfirst.symm.trans htally)
  obtain rfl : _ = tallyRest := Except.ok.inj (hsecond.symm.trans htallyRest)
  refine ⟨hapart, hwhole, ?_, ?_⟩
  · rw [hinstructions]
    decide +kernel
  · rw [hbindings]
    decide +kernel

end Vocabulary

end RegisterMachine
