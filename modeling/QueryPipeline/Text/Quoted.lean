import QueryPipeline.Text.Decimal
import QueryPipeline.Text.Printable

/-!
# Quoted text

Messages show a text between quotes, with everything that is not printable written as an escape, so
that a message never breaks a line.  Single quotes are used, unless the text has a single quote and
no double quote.
-/

namespace QueryPipeline.Text

/-- The escape of a character that has no shape: two, four or eight hexadecimal digits. -/
def codeEscape (c : Char) : List Char :=
  if c.toNat < 0x100 then '\\' :: 'x' :: hexadecimal 2 c.toNat
  else if c.toNat < 0x10000 then '\\' :: 'u' :: hexadecimal 4 c.toNat
  else '\\' :: 'U' :: hexadecimal 8 c.toNat

/-- One character between quotes of the given sort. -/
def quoteChar (mark c : Char) : List Char :=
  if c = mark ∨ c = '\\' then ['\\', c]
  else if c = '\n' then ['\\', 'n']
  else if c = '\r' then ['\\', 'r']
  else if c = '\t' then ['\\', 't']
  else if isPrintable c then [c]
  else codeEscape c

/-- The quote that a text is put between. -/
def quoteMark (cs : List Char) : Char :=
  if cs.contains '\'' && !cs.contains '"' then '"' else '\''

def quotedChars (cs : List Char) : List Char :=
  quoteMark cs :: (cs.flatMap (quoteChar (quoteMark cs)) ++ [quoteMark cs])

def quoted (s : String) : String :=
  String.ofList (quotedChars s.toList)

end QueryPipeline.Text
