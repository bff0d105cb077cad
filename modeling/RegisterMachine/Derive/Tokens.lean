import RegisterMachine.Derive.Expansion
import RegisterMachine.Derive.Quoted

/-!
# Generated code

A derived display as the code that implements it. Code is a list of tokens, in
which what stands between parentheses or braces is one token. Tokens are written
with a space between any two; parentheses stand close around their content and
braces do not.
-/

namespace RegisterMachine.Derive

/-- A token of generated code. -/
inductive Token
  | word (text : String)
  | paren (inner : List Token)
  | brace (inner : List Token)

mutual

/-- The text of a token. -/
def Token.text : Token → String
  | .word text => text
  | .paren inner => "(" ++ " ".intercalate (texts inner) ++ ")"
  | .brace [] => "\x7b \x7d"
  | .brace (first :: rest) => "\x7b " ++ " ".intercalate (texts (first :: rest)) ++ " \x7d"

/-- The texts of tokens in a row. -/
def texts : List Token → List String
  | [] => []
  | token :: tokens => token.text :: texts tokens

end

/-- The text of a piece of code. -/
def codeText (tokens : List Token) : String :=
  " ".intercalate (texts tokens)

/-- Words in a row. -/
def words (texts : List String) : List Token :=
  texts.map .word

/-- Words with a comma between any two. -/
def commaSeparated (texts : List String) : List Token :=
  words (texts.intersperse ",")

/-- A comma after each word. -/
def commaTerminated (texts : List String) : List Token :=
  words (texts.flatMap fun text => [text, ","])

/-- The type parameters of a declaration, if it has any. -/
def parameterTokens (parameters : List String) : List Token :=
  if parameters.isEmpty then []
  else [.word "<"] ++ commaSeparated parameters ++ [.word ">"]

/-- The code that gets a value. -/
def Value.words : Value → List String
  | bound name => [name]
  | member name => ["self", ".", name]

/-- The code that passes a value by name. -/
def NamedValue.words (value : NamedValue) : List String :=
  [value.name, "="] ++ value.value.words

/-- What is written with a message: nothing, or a comma and the values. -/
def valueTokens : Option (List NamedValue) → List Token
  | none => []
  | some values => words ("," :: (values.map NamedValue.words |>.intersperse [","] |>.flatten))

/-- The code that writes a message. -/
def Write.tokens (write : Write) : List Token :=
  [.word "write", .word "!",
    .paren (words ["f", ",", quote write.message] ++ valueTokens write.values)]

/-- The code of a pattern after the name of its variant. -/
def Pattern.tokens : Pattern → List Token
  | unit => []
  | tuple bindings => [.paren (commaSeparated (bindings.map (·.getD "_")))]
  | named bindings => [.brace (commaTerminated bindings ++ [.word ".."])]

/-- The code that displays a variant. -/
def Arm.tokens (arm : Arm) : List Token :=
  words ["Self", "::", arm.variant] ++ arm.pattern.tokens ++ [.word "=>"] ++ arm.write.tokens
    ++ [.word ","]

/-- The code that displays a value. -/
def Body.tokens : Body → List Token
  | single write => write.tokens
  | cases arms => [.word "match", .word "self", .brace (arms.flatMap Arm.tokens)]

/-- The path of a name in the standard library. -/
def standardPath (names : List String) : List Token :=
  words (["::", "std"] ++ names.flatMap fun name => ["::", name])

/-- The code that implements the display of a type and makes it an error type. -/
def Expansion.tokens (expansion : Expansion) : List Token :=
  let parameters := parameterTokens expansion.parameters
  let implement := [.word "impl"] ++ parameters
  let target := [.word "for", .word expansion.name] ++ parameters
  let arguments :=
    words ["&", "self", ",", "f", ":", "&", "mut"] ++ standardPath ["fmt", "Formatter"]
      ++ words ["<", "'_", ">"]
  let function :=
    [.word "fn", .word "fmt", .paren arguments, .word "->"] ++ standardPath ["fmt", "Result"]
      ++ [.brace expansion.body.tokens]
  implement ++ standardPath ["fmt", "Display"] ++ target ++ [.brace function]
    ++ implement ++ standardPath ["error", "Error"] ++ target ++ [.brace []]

/-- The text of the code that implements the display of a type. -/
def Expansion.text (expansion : Expansion) : String :=
  codeText expansion.tokens

end RegisterMachine.Derive
