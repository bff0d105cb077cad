import RegisterMachine.Derive.Declaration
import RegisterMachine.Derive.Message

/-!
# Deriving the display

Each error of a type is displayed by writing its message with the values of its
fields. A structure has one message; of an enumeration each variant has its own,
and the display tells the variants apart. A field is passed to the message only
if the message mentions it, and always by name: by its own, or by the name of
its position.

The message is the argument of the first attribute called `error`. Where it is
missing or no text, nothing is derived at all, and the first such place is the
one that is reported.
-/

namespace RegisterMachine.Derive

/-- Why nothing can be derived. -/
inductive DeriveError
  /-- The type is a union, which has no errors to tell apart. -/
  | union
  /-- There is no message. -/
  | missingMessage
  /-- The message is not given as a single text. -/
  | malformedMessage
  deriving DecidableEq, Repr, Inhabited

/-- The sentence that reports why nothing can be derived. -/
def DeriveError.message : DeriveError → String
  | union => "Error cannot be derived for unions"
  | missingMessage =>
    "missing #[error(\"...\")] attribute; every error needs a display message"
  | malformedMessage =>
    "expected a string literal, e.g. #[error(\"undefined label: \x7blabel\x7d\")]"

/-- Where the value of a named argument comes from. -/
inductive Value
  /-- A variable that a pattern has bound. -/
  | bound (name : String)
  /-- A member of the value that is displayed, by name or by position. -/
  | member (name : String)
  deriving DecidableEq, Repr, Inhabited

/-- A value passed to a message under a name. -/
structure NamedValue where
  name : String
  value : Value
  deriving DecidableEq, Repr, Inhabited

/-- The writing of a message. A type without fields passes no list of values, which is not the same
as passing an empty one. -/
structure Write where
  message : String
  values : Option (List NamedValue)
  deriving DecidableEq, Repr, Inhabited

/-- What a variant has to look like, and which of its fields get a name. -/
inductive Pattern
  | unit
  /-- The fields by position; those that are not needed stay without a name. -/
  | tuple (bindings : List (Option String))
  /-- The fields that are needed; all others are passed over. -/
  | named (bindings : List String)
  deriving DecidableEq, Repr, Inhabited

/-- The display of one variant. -/
structure Arm where
  variant : String
  pattern : Pattern
  write : Write
  deriving DecidableEq, Repr, Inhabited

/-- The display of any value of a type. -/
inductive Body
  | single (write : Write)
  | cases (arms : List Arm)
  deriving DecidableEq, Repr, Inhabited

/-- The derived display of a type. -/
structure Expansion where
  name : String
  parameters : List String
  body : Body
  deriving DecidableEq, Repr, Inhabited

/-- The message that the attributes of a structure or of a variant give. -/
def messageOf (attributes : List Attribute) : Except DeriveError String :=
  match attributes.find? (·.name == "error") with
  | none => .error .missingMessage
  | some { argument := .listed [.text message], .. } => .ok message
  | some _ => .error .malformedMessage

/-- The name by which the field at a position is passed. -/
def positionName (index : Nat) : String :=
  "f" ++ Numeral.ofNat index

/-- The positions, out of so many, that a template mentions by name. -/
def mentionedPositions (message : String) (count : Nat) : List Nat :=
  (List.range count).filter fun index => mentions message (positionName index)

/-- The display of a variant. -/
def Arm.ofVariant (variant : String) (fields : Fields) (message : String) : Arm :=
  match fields with
  | .unit => { variant, pattern := .unit, write := { message, values := none } }
  | .tuple count =>
    let template := namePositions count message
    let bindings := (List.range count).map fun index =>
      if mentions template (positionName index) then some (positionName index) else none
    let values := (mentionedPositions template count).map fun index =>
      { name := positionName index, value := .bound (positionName index) : NamedValue }
    { variant, pattern := .tuple bindings, write := { message := template, values := some values } }
  | .named names =>
    let used := names.filter (mentions message)
    let values := used.map fun name => { name, value := .bound name : NamedValue }
    { variant, pattern := .named used, write := { message, values := some values } }

/-- The display of a structure. -/
def Write.ofStruct (fields : Fields) (message : String) : Write :=
  match fields with
  | .unit => { message, values := none }
  | .tuple count =>
    let template := namePositions count message
    let values := (mentionedPositions template count).map fun index =>
      { name := positionName index, value := .member (Numeral.ofNat index) : NamedValue }
    { message := template, values := some values }
  | .named names =>
    let values := (names.filter (mentions message)).map fun name =>
      { name, value := .member name : NamedValue }
    { message, values := some values }

/-- The display of every variant, in the order of their declaration. -/
def armsOf (variants : List Variant) : Except DeriveError (List Arm) :=
  variants.mapM fun variant => do
    let message ← messageOf variant.attributes
    return Arm.ofVariant variant.name variant.fields message

/-- Derives the display of a type. -/
def expand (declaration : Declaration) : Except DeriveError Expansion := do
  let body ←
    match declaration.shape with
    | .struct fields => do
      let message ← messageOf declaration.attributes
      pure (Body.single (Write.ofStruct fields message))
    | .enum variants => do
      let arms ← armsOf variants
      pure (Body.cases arms)
    | .union => .error .union
  return { name := declaration.name, parameters := declaration.parameters, body }

end RegisterMachine.Derive
