import RegisterMachine.Assembly.Basic
import RegisterMachine.Proofs.ByteLines

/-!
# What is left when the input fails

Assembly is given up for two reasons only, a line that is not text and a source
that cannot be read to its end. The first it finds in the bytes, and just when
the bytes as a whole are not text; the second comes after all the bytes that
there were, and an unfinished line is lost with it. Either way the program and
the console are left as assembling the bytes before would have left them.

What an assembly does to a workspace does not depend on what was there. The
program is made anew, and console and log are added to; `assemble_followedBy`
says so in one equation. A file that cannot be opened is never assembled at all.
-/

namespace RegisterMachine

/-! ## The workspace that is found is added to -/

/-- What was there before, with what came after added to it; the program is the later one. -/
def Workspace.followedBy (before after : Workspace) : Workspace where
  program := after.program
  console := ⟨before.console.lines ++ after.console.lines⟩
  log := before.log ++ after.log

theorem Workspace.followedBy_note (before after : Workspace) (level : Log.Level)
    (message : String) :
    (before.followedBy after).note level message
      = before.followedBy (after.note level message) := by
  rw [note, note, followedBy, followedBy, Array.push_append]

theorem Workspace.followedBy_complain (before after : Workspace) (error : Error)
    (reference : String) :
    (before.followedBy after).complain error reference
      = before.followedBy (after.complain error reference) := by
  simp only [complain, followedBy, Console.addRejection, Console.addLine, Array.push_append]

theorem Workspace.accept_followedBy (before after : Workspace) (tally : Tally) (number : Nat)
    (reading : Reading) :
    (before.followedBy after).accept tally number reading
      = (before.followedBy (after.accept tally number reading).1,
          (after.accept tally number reading).2) := by
  cases reading with
  | blank => rfl
  | labelOnly label => simp only [accept, followedBy_note]
  | instruction made =>
      have hprogram : (before.followedBy after).program = after.program := rfl
      simp only [accept, hprogram]
      cases after.program.push made with
      | ok program => rfl
      | error error => simp only [followedBy_complain]
  | rejected error reference => simp only [accept, followedBy_complain]

namespace Vocabulary

variable {vocabulary : Vocabulary}

theorem assembleLines_followedBy (before : Workspace) (lines : List String) :
    ∀ (number : Nat) (after : Workspace) (tally : Tally),
      vocabulary.assembleLines number lines (before.followedBy after) tally
        = (before.followedBy (vocabulary.assembleLines number lines after tally).1,
            (vocabulary.assembleLines number lines after tally).2) := by
  induction lines with
  | nil => exact fun number after tally => rfl
  | cons line lines ih =>
      intro number after tally
      simp only [assembleLines, Workspace.accept_followedBy, ih]

/-! ## What a fault of the source does -/

theorem assemble_eq (vocabulary : Vocabulary) (source : Source) (workspace : Workspace) :
    vocabulary.assemble source workspace
      = ((vocabulary.assembleLines 1 source.lines { workspace with program := .empty } {}).1,
          match source.fault? with
          | some error => .error error
          | none => .ok (vocabulary.assembleLines 1 source.lines
              { workspace with program := .empty } {}).2) := by
  rw [assemble]
  cases source.fault? <;> rfl

/-- A text is assembled to its end. -/
theorem assemble_ofText (vocabulary : Vocabulary) (text : String) (workspace : Workspace) :
    vocabulary.assemble (.ofText text) workspace
      = ((vocabulary.assembleLines 1 (Source.ofText text).lines
            { workspace with program := .empty } {}).1,
          .ok (vocabulary.assembleLines 1 (Source.ofText text).lines
            { workspace with program := .empty } {}).2) := by
  rw [assemble_eq, Source.fault?_ofText]

/-- Assembling in a workspace is assembling in an empty one, and adding what comes of it. -/
theorem assemble_followedBy (vocabulary : Vocabulary) (source : Source) (workspace : Workspace) :
    vocabulary.assemble source workspace
      = (workspace.followedBy (vocabulary.assemble source {}).1,
          (vocabulary.assemble source {}).2) := by
  have hempty : { workspace with program := .empty } = workspace.followedBy {} := by
    simp [Workspace.followedBy, Program.empty]
  rw [assemble_eq, assemble_eq, hempty, assembleLines_followedBy]
  rfl

/-- Sources with the same lines leave the same behind, whatever ended the reading. -/
theorem assemble_of_fault {source front : Source} {error : Error}
    (hlines : source.lines = front.lines) (hfault : source.fault? = some error)
    (workspace : Workspace) :
    vocabulary.assemble source workspace
      = ((vocabulary.assemble front workspace).1, .error error) := by
  rw [assemble_eq, assemble_eq, hlines, hfault]

theorem exists_tally_iff {source : Source} {workspace : Workspace} :
    (∃ tally, (vocabulary.assemble source workspace).2 = .ok tally) ↔ source.fault? = none := by
  rw [assemble_eq]
  cases source.fault? <;> simp

theorem assemble_of_breaksAt {bytes front line rest : List UInt8}
    (h : Source.BreaksAt bytes front line rest) (workspace : Workspace) :
    (∃ tally, (vocabulary.assemble { bytes := front } workspace).2 = .ok tally)
      ∧ vocabulary.assemble { bytes } workspace
        = ((vocabulary.assemble { bytes := front } workspace).1, .error .invalidText) := by
  refine ⟨?_, assemble_of_fault h.lines_eq ?_ workspace⟩
  · rw [exists_tally_iff, Source.fault?_bytes, if_pos h.text]
  · rw [Source.fault?_bytes, if_neg h.not_isText]

theorem assemble_of_failure {front tail : List UInt8} (hfront : Source.Complete front)
    (hfree : Source.lineFeed ∉ tail) (reason : String) (workspace : Workspace) :
    vocabulary.assemble { bytes := front ++ tail, failure := some reason } workspace
      = ((vocabulary.assemble { bytes := front } workspace).1,
          .error (if Source.IsText front then .io reason else .invalidText)) := by
  have hraw := Source.rawLines_of_failure hfront hfree reason
  refine assemble_of_fault ?_ ?_ workspace
  · rw [Source.lines, hraw]
    rfl
  · rw [Source.fault?_eq, hraw]
    simp only [← Source.isText_iff_rawLines]
    split <;> rfl

theorem assembleFile_of_not_opened {file : InputFile} (h : ∀ source, file ≠ .opened source)
    (path : String) (workspace : Workspace) :
    ∃ text, vocabulary.assembleFile path file workspace = (workspace, .error (.io text)) := by
  cases file with
  | missing => exact ⟨_, rfl⟩
  | locked reason => exact ⟨_, rfl⟩
  | opened source => exact absurd rfl (h source)

/-- Assembly goes through just when the bytes are text. Otherwise it leaves what the lines before
the first broken one have made. When the source fails to be read, it leaves what the finished lines
have made, and the fault is that of a broken line among them, if there is one. In any case all that
was there before is added to, except for the program, which is made anew; and a file that cannot be
opened changes nothing. -/
theorem assemble_of_broken_input (vocabulary : Vocabulary) (bytes : List UInt8)
    (workspace : Workspace) :
    ((∃ tally, (vocabulary.assemble { bytes } workspace).2 = .ok tally) ↔ Source.IsText bytes)
      ∧ (¬ Source.IsText bytes → ∃ front line rest, Source.BreaksAt bytes front line rest
          ∧ (∃ tally, (vocabulary.assemble { bytes := front } workspace).2 = .ok tally)
          ∧ vocabulary.assemble { bytes } workspace
            = ((vocabulary.assemble { bytes := front } workspace).1, .error .invalidText))
      ∧ (∀ reason, ∃ front tail, bytes = front ++ tail
          ∧ Source.Complete front ∧ Source.lineFeed ∉ tail
          ∧ vocabulary.assemble { bytes, failure := some reason } workspace
            = ((vocabulary.assemble { bytes := front } workspace).1,
                .error (if Source.IsText front then .io reason else .invalidText)))
      ∧ (∀ failure, vocabulary.assemble { bytes, failure } workspace
          = (workspace.followedBy (vocabulary.assemble { bytes, failure } {}).1,
              (vocabulary.assemble { bytes, failure } {}).2))
      ∧ (∀ path file, (∀ source, file ≠ .opened source) →
          ∃ text, vocabulary.assembleFile path file workspace
            = (workspace, .error (.io text))) := by
  refine ⟨?_, ?_, ?_, ?_, ?_⟩
  · rw [exists_tally_iff, Source.fault?_bytes]
    split
    · next htext => exact ⟨fun _ => htext, fun _ => rfl⟩
    · next hbroken => exact ⟨nofun, fun htext => absurd htext hbroken⟩
  · intro hbroken
    obtain ⟨front, line, rest, hbreaks⟩ := Source.exists_breaksAt bytes hbroken
    exact ⟨front, line, rest, hbreaks, assemble_of_breaksAt hbreaks workspace⟩
  · intro reason
    obtain ⟨front, tail, rfl, hfront, hfree⟩ := Source.exists_complete_append bytes
    exact ⟨front, tail, rfl, hfront, hfree, assemble_of_failure hfront hfree reason workspace⟩
  · exact fun failure => assemble_followedBy vocabulary _ workspace
  · exact fun path file hfile => assembleFile_of_not_opened hfile path workspace

/-- An instruction, and a character of two bytes with a line feed between them. -/
def brokenCharacter : List UInt8 :=
  "out 0\n".toUTF8.data.toList ++ [0xc3, Source.lineFeed, 0xa9]

theorem assemble_of_broken_input_brokenCharacter :
    let workspace : Workspace := { program := ⟨{}, #[⟨"", .print 7⟩]⟩, console := ⟨#["before"]⟩ }
    ¬ Source.IsText brokenCharacter
      ∧ (∃ front line rest, Source.BreaksAt brokenCharacter front line rest
          ∧ standard.assemble { bytes := brokenCharacter } workspace
            = ((standard.assemble { bytes := front } workspace).1, .error .invalidText))
      ∧ (standard.assemble { bytes := brokenCharacter } workspace).1
        = { program := ⟨{}, #[⟨"", .print 0⟩]⟩, console := ⟨#["before"]⟩ }
      ∧ ∃ text, standard.assembleFile "a" .missing workspace = (workspace, .error (.io text)) := by
  intro workspace
  have hbroken : ¬ Source.IsText brokenCharacter := by decide +kernel
  obtain ⟨-, hfirst, -, -, hfile⟩ := assemble_of_broken_input standard brokenCharacter workspace
  obtain ⟨front, line, rest, hbreaks, -, hassemble⟩ := hfirst hbroken
  exact ⟨hbroken, ⟨front, line, rest, hbreaks, hassemble⟩, by decide +kernel,
    hfile "a" .missing nofun⟩

end Vocabulary

end RegisterMachine
