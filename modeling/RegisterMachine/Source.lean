import RegisterMachine.Error

/-!
# Source text

A source is a stream of bytes, at whose end reading may fail. Line feeds end its
lines; a carriage return just before one goes with it. What stands after the
last line feed is a line as well, unless there is nothing or reading failed
before its end came into sight.

Each line has to be text on its own. The first that is not stops the reading,
and so nothing that comes later, a failure of the stream included, is seen.
-/

namespace RegisterMachine

/-- The bytes of a source, and why no more could be read after them, if reading failed. -/
structure Source where
  bytes : List UInt8
  failure : Option String := none
  deriving DecidableEq, Repr, Inhabited

namespace Source

/-- The byte that ends a line. -/
def lineFeed : UInt8 :=
  0x0a

/-- The byte that belongs to the end of the line when it stands before the line feed. -/
def carriageReturn : UInt8 :=
  0x0d

/-- A source that is text and can be read to its end. -/
def ofText (text : String) : Source :=
  { bytes := text.toUTF8.data.toList }

/-- The text that a line's bytes encode, if they encode any. -/
def text? (line : List UInt8) : Option String :=
  String.fromUTF8? ⟨line.toArray⟩

/-- A line without the carriage return at its end. Of several, one is taken off. -/
def dropReturn (line : List UInt8) : List UInt8 :=
  if line.getLast? = some carriageReturn then line.dropLast else line

/-- The lines that a line feed ends. -/
def finished (source : Source) : List (List UInt8) :=
  (source.bytes.splitOn lineFeed).dropLast.map dropReturn

/-- What stands after the last line feed, as a line if it is one. -/
def unfinished (source : Source) : List (List UInt8) :=
  if source.failure.isSome then []
  else (source.bytes.splitOn lineFeed).getLast?.toList.filter (!·.isEmpty)

/-- The lines of a source as bytes. -/
def rawLines (source : Source) : List (List UInt8) :=
  source.finished ++ source.unfinished

/-- The lines that are read before anything goes wrong. -/
def lines (source : Source) : List String :=
  ((source.rawLines.map text?).takeWhile Option.isSome).filterMap id

/-- What ends the reading before the end of the source, if anything does. -/
def fault? (source : Source) : Option Error :=
  if source.rawLines.all fun line => (text? line).isSome then source.failure.map Error.io
  else some .invalidText

end Source

/-- What a path leads to. -/
inductive InputFile
  /-- There is no such file. -/
  | missing
  /-- There is one, but it cannot be opened. -/
  | locked (reason : String)
  /-- The file is open. -/
  | opened (source : Source)
  deriving DecidableEq, Repr, Inhabited

namespace InputFile

/-- A file with the given contents. -/
def regular (bytes : List UInt8) : InputFile :=
  opened { bytes }

/-- A directory opens like a file, and then fails to be read. -/
def directory : InputFile :=
  opened { bytes := [], failure := some "Is a directory (os error 21)" }

/-- Whether the path leads anywhere. -/
def found (file : InputFile) : Bool :=
  file != missing

/-- The source in a file, or why it cannot be opened. -/
def open? : InputFile → Except String Source
  | missing => .error "No such file or directory (os error 2)"
  | locked reason => .error reason
  | opened source => .ok source

end InputFile

end RegisterMachine
