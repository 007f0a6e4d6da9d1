/-!
# Kinds of tokens

What the grammar asks of a token is its kind: one of the reserved words, one of the operator signs,
one of the punctuation marks, or the form of literal or name that it is.  A kind has a name, by
which messages call it, and `Kind.ofName` is the inverse of naming: reserved words are looked up by
name, so a word spelled like the name of another kind has that kind.
-/

namespace QueryPipeline

/-- The reserved words. -/
inductive Keyword where
  | SELECT | FROM | WHERE | AND | OR | NOT | IN | BETWEEN | LIKE | IS | NULL
  | INSERT | INTO | VALUES | UPDATE | SET | DELETE | DROP | CREATE | TABLE
  | ALTER | ADD | COLUMN | PRIMARY | KEY | FOREIGN | REFERENCES
  | JOIN | LEFT | RIGHT | INNER | OUTER | ON | AS | ORDER | BY | GROUP | HAVING
  | LIMIT | OFFSET | DISTINCT | ALL | ASC | DESC | COUNT | SUM | AVG | MAX | MIN
  | CASE | WHEN | THEN | ELSE | END
deriving DecidableEq, Repr

namespace Keyword

def name : Keyword → String
  | SELECT => "SELECT" | FROM => "FROM" | WHERE => "WHERE" | AND => "AND" | OR => "OR"
  | NOT => "NOT" | IN => "IN" | BETWEEN => "BETWEEN" | LIKE => "LIKE" | IS => "IS"
  | NULL => "NULL" | INSERT => "INSERT" | INTO => "INTO" | VALUES => "VALUES"
  | UPDATE => "UPDATE" | SET => "SET" | DELETE => "DELETE" | DROP => "DROP"
  | CREATE => "CREATE" | TABLE => "TABLE" | ALTER => "ALTER" | ADD => "ADD"
  | COLUMN => "COLUMN" | PRIMARY => "PRIMARY" | KEY => "KEY" | FOREIGN => "FOREIGN"
  | REFERENCES => "REFERENCES" | JOIN => "JOIN" | LEFT => "LEFT" | RIGHT => "RIGHT"
  | INNER => "INNER" | OUTER => "OUTER" | ON => "ON" | AS => "AS" | ORDER => "ORDER"
  | BY => "BY" | GROUP => "GROUP" | HAVING => "HAVING" | LIMIT => "LIMIT"
  | OFFSET => "OFFSET" | DISTINCT => "DISTINCT" | ALL => "ALL" | ASC => "ASC"
  | DESC => "DESC" | COUNT => "COUNT" | SUM => "SUM" | AVG => "AVG" | MAX => "MAX"
  | MIN => "MIN" | CASE => "CASE" | WHEN => "WHEN" | THEN => "THEN" | ELSE => "ELSE"
  | END => "END"

def all : List Keyword :=
  [SELECT, FROM, WHERE, AND, OR, NOT, IN, BETWEEN, LIKE, IS, NULL, INSERT, INTO, VALUES, UPDATE,
   SET, DELETE, DROP, CREATE, TABLE, ALTER, ADD, COLUMN, PRIMARY, KEY, FOREIGN, REFERENCES, JOIN,
   LEFT, RIGHT, INNER, OUTER, ON, AS, ORDER, BY, GROUP, HAVING, LIMIT, OFFSET, DISTINCT, ALL, ASC,
   DESC, COUNT, SUM, AVG, MAX, MIN, CASE, WHEN, THEN, ELSE, END]

def ofName? (s : String) : Option Keyword :=
  all.find? (·.name == s)

theorem mem_all (k : Keyword) : k ∈ all := by
  cases k <;> decide

end Keyword

/-- The operator signs; two spellings may share a sign. -/
inductive Sign where
  | eq | ne | lt | le | gt | ge | plus | minus | asterisk | divide | modulo
deriving DecidableEq, Repr

namespace Sign

def name : Sign → String
  | eq => "EQUALS"
  | ne => "NOT_EQUALS"
  | lt => "LESS_THAN"
  | le => "LESS_THAN_OR_EQUAL"
  | gt => "GREATER_THAN"
  | ge => "GREATER_THAN_OR_EQUAL"
  | plus => "PLUS"
  | minus => "MINUS"
  | asterisk => "ASTERISK"
  | divide => "DIVIDE"
  | modulo => "MODULO"

def all : List Sign :=
  [eq, ne, lt, le, gt, ge, plus, minus, asterisk, divide, modulo]

/-- The sign that a spelling stands for. -/
def ofChars? : List Char → Option Sign
  | ['='] => some eq
  | ['!', '='] => some ne
  | ['<', '>'] => some ne
  | ['<'] => some lt
  | ['<', '='] => some le
  | ['>'] => some gt
  | ['>', '='] => some ge
  | ['+'] => some plus
  | ['-'] => some minus
  | ['*'] => some asterisk
  | ['/'] => some divide
  | ['%'] => some modulo
  | _ => none

end Sign

/-- The punctuation marks. -/
inductive Mark where
  | lparen | rparen | comma | semicolon | dot
deriving DecidableEq, Repr

namespace Mark

def name : Mark → String
  | lparen => "LPAREN"
  | rparen => "RPAREN"
  | comma => "COMMA"
  | semicolon => "SEMICOLON"
  | dot => "DOT"

def all : List Mark :=
  [lparen, rparen, comma, semicolon, dot]

def ofChars? : List Char → Option Mark
  | ['('] => some lparen
  | [')'] => some rparen
  | [','] => some comma
  | [';'] => some semicolon
  | ['.'] => some dot
  | _ => none

end Mark

/-- What the grammar sees of a token.  `other` is the kind of a reserved word that no rule knows. -/
inductive Kind where
  | keyword (k : Keyword)
  | sign (s : Sign)
  | mark (m : Mark)
  | identifier
  | number
  | string
  | unsorted
  | eof
  | other (name : String)
deriving DecidableEq, Repr

namespace Kind

def name : Kind → String
  | keyword k => k.name
  | sign s => s.name
  | mark m => m.name
  | identifier => "IDENTIFIER"
  | number => "NUMBER"
  | string => "STRING"
  | unsorted => "TOKEN"
  | eof => "EOF"
  | other n => n

/-- The kinds that have a name of their own. -/
def named : List Kind :=
  Keyword.all.map keyword ++ Sign.all.map sign ++ Mark.all.map mark ++
    [identifier, number, string, unsorted, eof]

def ofName (s : String) : Kind :=
  (named.find? (·.name == s)).getD (other s)

theorem name_ofName (s : String) : (ofName s).name = s := by
  unfold ofName
  cases h : named.find? (·.name == s) with
  | none => rfl
  | some k => simpa using List.find?_some h

end Kind
end QueryPipeline
