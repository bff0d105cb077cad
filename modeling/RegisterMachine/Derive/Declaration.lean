/-!
# Declarations of error types

What is known of a type for which the display of its errors is to be derived:
its name, its type parameters, and the attributes and fields of its variants.
Of the types of the fields nothing needs to be known.
-/

namespace RegisterMachine.Derive

/-- A literal among the arguments of an attribute. -/
inductive Literal
  | text (value : String)
  | number (value : Nat)
  deriving DecidableEq, Repr, Inhabited

/-- What follows the name of an attribute. -/
inductive Argument
  /-- Nothing. -/
  | none
  /-- An equals sign and a text. -/
  | assigned (value : String)
  /-- Literals between parentheses. -/
  | listed (literals : List Literal)
  deriving DecidableEq, Repr, Inhabited

/-- An attribute of a type or of a variant. -/
structure Attribute where
  name : String
  argument : Argument
  deriving DecidableEq, Repr, Inhabited

/-- The fields of a structure or of a variant. -/
inductive Fields
  | unit
  | tuple (count : Nat)
  | named (names : List String)
  deriving DecidableEq, Repr, Inhabited

/-- One of the cases of an enumeration. -/
structure Variant where
  name : String
  attributes : List Attribute
  fields : Fields
  deriving DecidableEq, Repr, Inhabited

/-- What kind of type is declared, and with what content. -/
inductive Shape
  | struct (fields : Fields)
  | enum (variants : List Variant)
  | union
  deriving DecidableEq, Repr, Inhabited

/-- The declaration of a type. -/
structure Declaration where
  name : String
  parameters : List String
  attributes : List Attribute
  shape : Shape
  deriving DecidableEq, Repr, Inhabited

end RegisterMachine.Derive
