import RegisterMachine.Error

/-!
# The console

One sink of text lines for everything a program has to show: the values that it
prints, the lines of its source that were rejected, and the divisions by zero
that it survived. Lines are only ever added.

A printed value can be told from a diagnostic by its look alone, since a
diagnostic starts with a letter and a numeral never does.
-/

namespace RegisterMachine

/-- The lines printed so far. -/
structure Console where
  lines : Array String := #[]
  deriving DecidableEq, Repr, Inhabited

namespace Console

/-- What a rejected source line is announced with. -/
def rejectionLead : String :=
  "Parse Error: "

/-- What a fault that the run survives is announced with. -/
def faultLead : String :=
  "Runtime Error: "

/-- Adds one line. -/
def addLine (console : Console) (line : String) : Console :=
  { console with lines := console.lines.push line }

/-- Shows a value on a line of its own. -/
def addValue (console : Console) (value : Int64) : Console :=
  console.addLine (Numeral.ofInt value.toInt)

/-- Reports a rejected source line, which goes by its label or its number. -/
def addRejection (console : Console) (message reference : String) : Console :=
  console.addLine (rejectionLead ++ message ++ " on line " ++ reference)

/-- Reports a fault that does not end the run. -/
def addFault (console : Console) (error : Error) : Console :=
  console.addLine (faultLead ++ error.message)

/-- The lines that start with a given text. -/
def startingWith (console : Console) (lead : String) : List String :=
  console.lines.toList.filter fun line => lead.toList.isPrefixOf line.toList

/-- The lines that read as signed words, as their values. -/
def values (console : Console) : List Int64 :=
  console.lines.toList.filterMap fun line => Numeral.signed? line.toList

@[simp] theorem toList_addLine (console : Console) (line : String) :
    (console.addLine line).lines.toList = console.lines.toList ++ [line] := by
  simp [addLine]

theorem values_addLine (console : Console) (line : String) :
    (console.addLine line).values
      = console.values ++ (Numeral.signed? line.toList).toList := by
  cases h : Numeral.signed? line.toList <;> simp [values, h]

/-- A printed value is found again among the values. -/
theorem values_addValue (console : Console) (value : Int64) :
    (console.addValue value).values = console.values ++ [value] := by
  rw [addValue, values_addLine, Numeral.signed?_ofInt]
  rfl

end Console

end RegisterMachine
