import RegisterMachine.Assembly.Reading
import RegisterMachine.Proofs.StandardVocabulary

/-!
# Operand slots

What the operands of an instruction should be, and what is wrong with them when
they are not, said of the tokens and without a cursor. `Filled` fills a row of
slots with tokens, one each, and `Defect` names the first thing that keeps a
row from being filled exactly; one of the two always holds.

The decoder of an opcode works on a cursor and takes its operands one at a
time. Two facts carry it over. A scan takes the next token, which is all that
is left of the cursor here. And the operands of every opcode are read like its
row of slots, `slots_kinds`, so that one induction over the row does for all
seven. What comes out is that filled slots decode to their operation and a
defect to its own fault.
-/

namespace RegisterMachine

/-- What stands in an operand slot. -/
inductive OperandValue
  | register (index : UInt64)
  | integer (value : Int64)
  | label (name : String)
  deriving DecidableEq, Repr

/-- The value of a token in a slot, or the complaint about a token that does not fit it. -/
def OperandKind.read : OperandKind → String → Except Error OperandValue
  | register, token =>
    match Numeral.unsigned? token.toList with
    | some index => .ok (.register index)
    | none => .error (.expectedRegister token)
  | integer, token =>
    match Numeral.signed? token.toList with
    | some value => .ok (.integer value)
    | none => .error (.expectedInteger token)
  | label, token => .ok (.label token)

/-- The values in the slots of an operation, in the order of the source. -/
def Operation.values : Operation → List OperandValue
  | load register value => [.register register, .integer value]
  | arith _ result op1 op2 => [.register result, .register op1, .register op2]
  | print register => [.register register]
  | branch register target => [.register register, .label target]

theorem Operation.eq_of_values {a b : Operation} (hcode : a.opcode = b.opcode)
    (hvalues : a.values = b.values) : a = b := by
  cases a <;> cases b <;> cases hcode <;> cases hvalues <;> rfl

/-- Slots that are filled by as many tokens, each of which has a value there. -/
inductive Filled : List OperandKind → List String → List OperandValue → Prop
  | nil : Filled [] [] []
  | cons {kind : OperandKind} {token : String} {value : OperandValue} {kinds : List OperandKind}
      {tokens : List String} {values : List OperandValue} (hfits : kind.read token = .ok value)
      (hrest : Filled kinds tokens values) :
      Filled (kind :: kinds) (token :: tokens) (value :: values)

/-- The first thing that is wrong with the operands of an instruction. -/
inductive Defect (instruction : String) : List OperandKind → List String → Error → Prop
  /-- The tokens end before the slots. -/
  | missing {front kinds : List OperandKind} {kind : OperandKind} {tokens : List String}
      {values : List OperandValue} (hbefore : Filled front tokens values) :
      Defect instruction (front ++ kind :: kinds) tokens (.missingOperand instruction)
  /-- A token does not fit its slot. -/
  | malformed {front kinds : List OperandKind} {kind : OperandKind} {tokens rest : List String}
      {token : String} {values : List OperandValue} {error : Error}
      (hbefore : Filled front tokens values) (hmisfit : kind.read token = .error error) :
      Defect instruction (front ++ kind :: kinds) (tokens ++ token :: rest) error
  /-- The slots end before the tokens. -/
  | leftover {kinds : List OperandKind} {tokens rest : List String} {extra : String}
      {values : List OperandValue} (hbefore : Filled kinds tokens values) :
      Defect instruction kinds (tokens ++ extra :: rest) (.extraOperand instruction extra)

/-! ## Filled or not -/

theorem Defect.cons {instruction token : String} {kind : OperandKind} {value : OperandValue}
    {kinds : List OperandKind} {tokens : List String} {error : Error}
    (hfits : kind.read token = .ok value) (h : Defect instruction kinds tokens error) :
    Defect instruction (kind :: kinds) (token :: tokens) error := by
  cases h with
  | missing hbefore => exact .missing (.cons hfits hbefore)
  | malformed hbefore hmisfit => exact .malformed (.cons hfits hbefore) hmisfit
  | leftover hbefore => exact .leftover (.cons hfits hbefore)

theorem filled_or_defect (instruction : String) :
    ∀ (kinds : List OperandKind) (tokens : List String),
      (∃ values, Filled kinds tokens values) ∨ ∃ error, Defect instruction kinds tokens error := by
  intro kinds
  induction kinds with
  | nil =>
      intro tokens
      cases tokens with
      | nil => exact .inl ⟨[], .nil⟩
      | cons extra rest => exact .inr ⟨_, .leftover .nil⟩
  | cons kind kinds ih =>
      intro tokens
      cases tokens with
      | nil => exact .inr ⟨_, .missing .nil⟩
      | cons token tokens =>
          cases hread : kind.read token with
          | error error => exact .inr ⟨error, .malformed .nil hread⟩
          | ok value =>
              rcases ih tokens with ⟨values, hfilled⟩ | ⟨error, hwrong⟩
              · exact .inl ⟨value :: values, .cons hread hfilled⟩
              · exact .inr ⟨error, hwrong.cons hread⟩

/-! ## The cursor, seen through its tokens -/

namespace Scanner

theorem scan_of_tokens_cons {scanner : Scanner} {token : String} {rest : List String}
    (h : scanner.tokens = token :: rest) :
    ∃ after, scanner.scan = (some token, after) ∧ after.tokens = rest := by
  have hscan := scanner.tokens_eq_scan
  rw [h] at hscan
  cases hres : scanner.scan with
  | mk first after =>
      rw [hres] at hscan
      cases first with
      | none => cases hscan
      | some first =>
          injection hscan with hfirst hrest
          subst hfirst
          exact ⟨after, rfl, hrest.symm⟩

theorem scan_of_tokens_nil {scanner : Scanner} (h : scanner.tokens = []) :
    ∃ after, scanner.scan = (none, after) := by
  have hscan := scanner.tokens_eq_scan
  rw [h] at hscan
  cases hres : scanner.scan with
  | mk first after =>
      rw [hres] at hscan
      cases first with
      | none => exact ⟨after, rfl⟩
      | some first => cases hscan

theorem peek_eq_head? (scanner : Scanner) : scanner.peek = scanner.tokens.head? := by
  cases h : scanner.tokens with
  | nil =>
      obtain ⟨after, hscan⟩ := scan_of_tokens_nil h
      rw [peek, hscan]
      rfl
  | cons token rest =>
      obtain ⟨after, hscan, -⟩ := scan_of_tokens_cons h
      rw [peek, hscan]
      rfl

theorem ne_empty_of_mem_tokens {scanner : Scanner} {token : String}
    (h : token ∈ scanner.tokens) : token ≠ "" := by
  obtain ⟨piece, hpiece, rfl⟩ := List.mem_map.1 h
  have hfull := (List.mem_filter.1 hpiece).2
  intro hempty
  rw [← String.toList_eq_nil_iff, String.toList_ofList] at hempty
  rw [hempty] at hfull
  cases hfull

end Scanner

namespace Decoder

/-- Reads the operand of one slot. -/
def slot (kind : OperandKind) : Decoder OperandValue := do
  let token ← token
  match kind.read token with
  | .ok value => pure value
  | .error error => fail error

/-- Reads the operands of a row of slots. -/
def slots : List OperandKind → Decoder (List OperandValue)
  | [] => pure []
  | kind :: kinds => do
    let value ← slot kind
    let values ← slots kinds
    pure (value :: values)

theorem token_of_cons {operands : Operands} {token : String} {rest : List String}
    (h : operands.scanner.tokens = token :: rest) :
    ∃ left, Decoder.token operands = (.ok token, left) ∧ left.scanner.tokens = rest
      ∧ left.instruction = operands.instruction := by
  obtain ⟨after, hscan, hrest⟩ := Scanner.scan_of_tokens_cons h
  refine ⟨{ operands with scanner := after }, ?_, hrest, rfl⟩
  rw [Decoder.token, hscan]

theorem slot_of_ok {operands : Operands} {kind : OperandKind} {token : String}
    {rest : List String} {value : OperandValue} (h : operands.scanner.tokens = token :: rest)
    (hfits : kind.read token = .ok value) :
    ∃ left, slot kind operands = (.ok value, left) ∧ left.scanner.tokens = rest
      ∧ left.instruction = operands.instruction := by
  obtain ⟨left, htoken, hrest, hname⟩ := token_of_cons h
  refine ⟨left, ?_, hrest, hname⟩
  rw [slot, bind_ok htoken, hfits]
  rfl

theorem slot_of_error {operands : Operands} {kind : OperandKind} {token : String}
    {rest : List String} {error : Error} (h : operands.scanner.tokens = token :: rest)
    (hmisfit : kind.read token = .error error) :
    ∃ left, slot kind operands = (.error error, left) := by
  obtain ⟨left, htoken, -, -⟩ := token_of_cons h
  refine ⟨left, ?_⟩
  rw [slot, bind_ok htoken, hmisfit]
  rfl

theorem slot_of_nil {operands : Operands} (kind : OperandKind)
    (h : operands.scanner.tokens = []) :
    ∃ left, slot kind operands = (.error (.missingOperand operands.instruction), left) := by
  obtain ⟨after, hscan⟩ := Scanner.scan_of_tokens_nil h
  refine ⟨{ operands with scanner := after }, ?_⟩
  rw [slot, bind_error]
  rw [Decoder.token, hscan]

theorem slots_of_filled {kinds : List OperandKind} {tokens : List String}
    {values : List OperandValue} (hfilled : Filled kinds tokens values) :
    ∀ {operands : Operands} {rest : List String},
      operands.scanner.tokens = tokens ++ rest →
      ∃ left, slots kinds operands = (.ok values, left) ∧ left.scanner.tokens = rest
        ∧ left.instruction = operands.instruction := by
  induction hfilled with
  | nil =>
      intro operands rest h
      exact ⟨operands, rfl, h, rfl⟩
  | cons hfits _ ih =>
      intro operands rest h
      obtain ⟨mid, hslot, hmid, hname⟩ := slot_of_ok h hfits
      obtain ⟨left, hslots, hleft, hsame⟩ := ih hmid
      refine ⟨left, ?_, hleft, hsame.trans hname⟩
      rw [slots, bind_ok hslot, bind_ok hslots]
      rfl

/-- A fault of later slots is a fault of all slots, when those before are filled. -/
theorem slots_append_error {front : List OperandKind} {tokens : List String}
    {values : List OperandValue} (hbefore : Filled front tokens values) {kinds : List OperandKind}
    {rest : List String} {instruction : String} {error : Error}
    (hlater : ∀ operands : Operands, operands.scanner.tokens = rest →
      operands.instruction = instruction → ∃ left, slots kinds operands = (.error error, left)) :
    ∀ operands : Operands, operands.scanner.tokens = tokens ++ rest →
      operands.instruction = instruction →
      ∃ left, slots (front ++ kinds) operands = (.error error, left) := by
  induction hbefore with
  | nil => exact hlater
  | cons hfits _ ih =>
      intro operands h hname
      obtain ⟨mid, hslot, hmid, hsame⟩ := slot_of_ok h hfits
      obtain ⟨left, hslots⟩ := ih mid hmid (hsame.trans hname)
      refine ⟨left, ?_⟩
      rw [List.cons_append, slots, bind_ok hslot, bind_error hslots]

/-! ## The operands of an opcode, read as its slots -/

/-- An answer seen through a function; what is left and what fails stay. -/
def view {α β : Type} (f : α → β) (decoder : Decoder α) : Decoder β :=
  fun operands => ((decoder operands).1.map f, (decoder operands).2)

theorem slot_register : slot .register = view .register register := by
  funext operands
  rw [view, register, slot]
  cases h : token operands with
  | mk answer left =>
      cases answer with
      | error error => rw [bind_error h, bind_error h]; rfl
      | ok token =>
          rw [bind_ok h, bind_ok h, OperandKind.read]
          cases Numeral.unsigned? token.toList <;> rfl

theorem slot_integer : slot .integer = view .integer integer := by
  funext operands
  rw [view, integer, slot]
  cases h : token operands with
  | mk answer left =>
      cases answer with
      | error error => rw [bind_error h, bind_error h]; rfl
      | ok token =>
          rw [bind_ok h, bind_ok h, OperandKind.read]
          cases Numeral.signed? token.toList <;> rfl

theorem slot_label : slot .label = view .label label := by
  funext operands
  rw [view, label, slot]
  cases h : token operands with
  | mk answer left =>
      cases answer with
      | error error => rw [bind_error h]; rfl
      | ok token => rw [bind_ok h]; rfl

theorem view_bind {α β γ δ : Type} {f : α → β} {g : γ → δ} {first : Decoder α}
    {next : α → Decoder γ} {other : β → Decoder δ} (h : ∀ a, other (f a) = view g (next a)) :
    (view f first >>= other) = view g (first >>= next) := by
  funext operands
  cases hfirst : first operands with
  | mk answer left =>
      have hview : view f first operands = (answer.map f, left) := by rw [view, hfirst]
      cases answer with
      | error error =>
          rw [bind_error hview, view, bind_error hfirst]
          rfl
      | ok answer =>
          rw [bind_ok hview, h, view, view, bind_ok hfirst]

theorem assoc {α β γ : Type} (first : Decoder α) (next : α → Decoder β) (last : β → Decoder γ) :
    (first >>= next) >>= last = first >>= fun a => next a >>= last := by
  funext operands
  cases h : first operands with
  | mk answer left =>
      cases answer with
      | error error => rw [bind_error (bind_error h), bind_error h]
      | ok answer =>
          rw [bind_ok h]
          cases h' : next answer left with
          | mk answer left =>
              cases answer with
              | error error => rw [bind_error h', bind_error]; rw [bind_ok h, h']
              | ok answer => rw [bind_ok h', bind_ok]; rw [bind_ok h, h']

theorem slots_kinds (opcode : Opcode) :
    slots opcode.kinds = view Operation.values opcode.decode := by
  cases opcode with
  | lin =>
      simp only [Opcode.kinds, slots, Opcode.decode, slot_register, slot_integer, assoc]
      exact view_bind fun register => view_bind fun value => rfl
  | arith op =>
      simp only [Opcode.kinds, slots, Opcode.decode, slot_register, assoc]
      exact view_bind fun result => view_bind fun op1 => view_bind fun op2 => rfl
  | out =>
      simp only [Opcode.kinds, slots, Opcode.decode, slot_register]
      exact view_bind fun register => rfl
  | bnz =>
      simp only [Opcode.kinds, slots, Opcode.decode, slot_register, slot_label, assoc]
      exact view_bind fun register => view_bind fun target => rfl

/-- Whatever a decoder answers has a property. -/
def Always {α : Type} (property : α → Prop) (decoder : Decoder α) : Prop :=
  ∀ operands left answer, decoder operands = (.ok answer, left) → property answer

theorem Always.bind {α β : Type} {property : β → Prop} {first : Decoder α} {next : α → Decoder β}
    (h : ∀ a, Always property (next a)) : Always property (first >>= next) := by
  intro operands left answer hbind
  cases hfirst : first operands with
  | mk result mid =>
      cases result with
      | error error =>
          rw [bind_error hfirst] at hbind
          cases hbind
      | ok a =>
          rw [bind_ok hfirst] at hbind
          exact h a mid left answer hbind

theorem Always.pure {α : Type} {property : α → Prop} {a : α} (h : property a) :
    Always property (pure a) := by
  intro operands left answer hpure
  cases hpure
  exact h

theorem opcode_of_decode (opcode : Opcode) :
    Always (fun operation => operation.opcode = opcode) opcode.decode := by
  cases opcode with
  | lin => exact .bind fun _ => .bind fun _ => .pure rfl
  | arith op => exact .bind fun _ => .bind fun _ => .bind fun _ => .pure rfl
  | out => exact .bind fun _ => .pure rfl
  | bnz => exact .bind fun _ => .bind fun _ => .pure rfl

/-- Slots that could be read make an operation of the opcode that they belong to. -/
theorem exists_operation_of_slots {opcode : Opcode} {values : List OperandValue}
    {operands left : Operands} (h : slots opcode.kinds operands = (.ok values, left)) :
    ∃ operation : Operation, operation.opcode = opcode ∧ operation.values = values
      ∧ opcode.decode operands = (.ok operation, left) := by
  rw [slots_kinds, view] at h
  cases hdecode : opcode.decode operands with
  | mk answer after =>
      rw [hdecode] at h
      cases answer with
      | error error => cases h
      | ok operation =>
          injection h with hvalues hleft
          injection hvalues with hvalues
          subst hleft
          exact ⟨operation, opcode_of_decode opcode _ _ _ hdecode, hvalues, rfl⟩

theorem decode_of_slots_ok {operation : Operation} {operands left : Operands}
    (h : slots operation.opcode.kinds operands = (.ok operation.values, left)) :
    operation.opcode.decode operands = (.ok operation, left) := by
  obtain ⟨other, hcode, hvalues, hdecode⟩ := exists_operation_of_slots h
  rw [hdecode, Operation.eq_of_values hcode hvalues]

theorem decode_of_slots_error {opcode : Opcode} {error : Error} {operands left : Operands}
    (h : slots opcode.kinds operands = (.error error, left)) :
    opcode.decode operands = (.error error, left) := by
  rw [slots_kinds, view] at h
  cases hdecode : opcode.decode operands with
  | mk answer after =>
      rw [hdecode] at h
      cases answer with
      | error other =>
          injection h with herror hleft
          injection herror with herror
          subst herror hleft
          rfl
      | ok operation => cases h

end Decoder

namespace Vocabulary

variable {label name : String} {scanner : Scanner} {opcode : Opcode}

theorem decode_of_find? {vocabulary : Vocabulary} {mnemonic : Mnemonic}
    (h : vocabulary.find? name = some mnemonic) :
    vocabulary.decode label name scanner =
      match mnemonic.decode label scanner with
      | (.ok instruction, left) =>
        match left.scanner.peek with
        | some extra => .error (.extraOperand mnemonic.spelling extra)
        | none => .ok instruction
      | (.error error, _) => .error error := by
  rw [decode, lookup, h]
  simp only [bind, Except.bind]
  cases mnemonic.decode label scanner with
  | mk answer left => cases answer <;> rfl

theorem decode_of_unknown (hunknown : ¬ IsMnemonic name) :
    standard.decode label name scanner = .error (.unknownInstruction name) := by
  rw [decode, lookup, find?_standard_eq_none hunknown]
  rfl

theorem decode_of_ok (hnamed : opcode.Named name) {operation : Operation} {left : Operands}
    (h : opcode.decode { scanner, instruction := opcode.mnemonic } = (.ok operation, left)) :
    standard.decode label name scanner =
      match left.scanner.peek with
      | some extra => .error (.extraOperand opcode.mnemonic extra)
      | none => .ok { label, operation } := by
  have hformat : Mnemonic.decode ⟨opcode.mnemonic, opcode.format⟩ label scanner
      = (.ok { label, operation }, left) := Decoder.bind_ok h
  rw [decode_of_find? (find?_standard_eq_some hnamed), hformat]

theorem decode_of_error (hnamed : opcode.Named name) {error : Error} {left : Operands}
    (h : opcode.decode { scanner, instruction := opcode.mnemonic } = (.error error, left)) :
    standard.decode label name scanner = .error error := by
  have hformat : Mnemonic.decode ⟨opcode.mnemonic, opcode.format⟩ label scanner
      = (.error error, left) := Decoder.bind_error h
  rw [decode_of_find? (find?_standard_eq_some hnamed), hformat]

theorem decode_of_filled {operation : Operation} (hnamed : operation.opcode.Named name)
    (hfilled : Filled operation.opcode.kinds scanner.tokens operation.values) :
    standard.decode label name scanner = .ok { label, operation } := by
  have htokens : (Operands.mk scanner operation.opcode.mnemonic).scanner.tokens
      = scanner.tokens ++ [] := (List.append_nil _).symm
  obtain ⟨left, hslots, hleft, -⟩ := Decoder.slots_of_filled hfilled htokens
  rw [decode_of_ok hnamed (Decoder.decode_of_slots_ok hslots), Scanner.peek_eq_head?, hleft]
  rfl

theorem decode_of_defect (hnamed : opcode.Named name) {error : Error}
    (hwrong : Defect opcode.mnemonic opcode.kinds scanner.tokens error) :
    standard.decode label name scanner = .error error := by
  -- The indices of a defect are appended lists, so they have to be variables before the cases.
  generalize hkinds : opcode.kinds = kinds at hwrong
  generalize htokens : scanner.tokens = tokens at hwrong
  cases hwrong with
  | @missing front kinds kind _ _ hbefore =>
      have hlater : ∀ operands : Operands, operands.scanner.tokens = [] →
          operands.instruction = opcode.mnemonic →
          ∃ left, Decoder.slots (kind :: kinds) operands
            = (.error (.missingOperand opcode.mnemonic), left) := by
        intro operands h hname
        obtain ⟨left, hslot⟩ := Decoder.slot_of_nil kind h
        rw [hname] at hslot
        exact ⟨left, Decoder.bind_error hslot⟩
      obtain ⟨left, hslots⟩ := Decoder.slots_append_error hbefore hlater
        { scanner, instruction := opcode.mnemonic } (by rw [htokens, List.append_nil]) rfl
      rw [← hkinds] at hslots
      exact decode_of_error hnamed (Decoder.decode_of_slots_error hslots)
  | @malformed front kinds kind _ rest token _ _ hbefore hmisfit =>
      have hlater : ∀ operands : Operands, operands.scanner.tokens = token :: rest →
          operands.instruction = opcode.mnemonic →
          ∃ left, Decoder.slots (kind :: kinds) operands = (.error error, left) := by
        intro operands h _
        obtain ⟨left, hslot⟩ := Decoder.slot_of_error h hmisfit
        exact ⟨left, Decoder.bind_error hslot⟩
      obtain ⟨left, hslots⟩ := Decoder.slots_append_error hbefore hlater
        { scanner, instruction := opcode.mnemonic } htokens rfl
      rw [← hkinds] at hslots
      exact decode_of_error hnamed (Decoder.decode_of_slots_error hslots)
  | @leftover _ _ rest extra _ hbefore =>
      have hcursor : (Operands.mk scanner opcode.mnemonic).scanner.tokens = _ ++ extra :: rest :=
        htokens
      obtain ⟨left, hslots, hleft, -⟩ := Decoder.slots_of_filled hbefore hcursor
      rw [← hkinds] at hslots
      obtain ⟨operation, -, -, hdecode⟩ := Decoder.exists_operation_of_slots hslots
      rw [decode_of_ok hnamed hdecode, Scanner.peek_eq_head?, hleft]
      rfl

end Vocabulary

end RegisterMachine
