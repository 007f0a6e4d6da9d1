import QueryPipeline.Text.Case
import QueryPipeline.Text.Quoted
import QueryPipeline.Token.Kind

/-!
# Tokens

A token is a form, the text it carries and its place in the query.  The text of a name or of a
string is without its quotes.  Two tokens say the same when form and text agree; the place only
serves messages.  A sign or mark whose spelling is unknown has no kind.
-/

namespace QueryPipeline

namespace Token

/-- The forms of tokens.  `plain` tokens are made by hand only. -/
inductive Form where
  | plain | keyword | identifier | number | string | punctuation | operator | eof
deriving DecidableEq, Repr

/-- The name of a form, as messages show it. -/
def Form.name : Form → String
  | plain => "Token"
  | keyword => "KeywordToken"
  | identifier => "IdentifierToken"
  | number => "NumberToken"
  | string => "StringToken"
  | punctuation => "PunctuationToken"
  | operator => "OperatorToken"
  | eof => "EOFToken"

def Form.all : List Form :=
  [plain, keyword, identifier, number, string, punctuation, operator, eof]

def Form.ofName? (s : String) : Option Form :=
  Form.all.find? (·.name == s)

end Token

/-- A piece of a query.  The end of the query is a token without text. -/
structure Token where
  form : Token.Form
  text : String
  position : Int
deriving DecidableEq, Repr

namespace Token

/-- The token that ends every query. -/
def endOfText (position : Int) : Token :=
  ⟨.eof, "", position⟩

/-- What the grammar sees of a token. -/
def kind? (t : Token) : Option Kind :=
  match t.form with
  | .plain => some .unsorted
  | .keyword => some (Kind.ofName (Text.upper t.text))
  | .identifier => some .identifier
  | .number => some .number
  | .string => some .string
  | .punctuation => (Mark.ofChars? t.text.toList).map .mark
  | .operator => (Sign.ofChars? t.text.toList).map .sign
  | .eof => some .eof

/-- Form and text agree. -/
def same (s t : Token) : Bool :=
  s.form == t.form && s.text == t.text

/-- A token as messages show it. -/
def inspect (t : Token) : String :=
  t.form.name ++ "(" ++ (if t.form = .eof then "None" else Text.quoted t.text) ++ ")"

end Token
end QueryPipeline
