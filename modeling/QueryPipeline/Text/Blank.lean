import QueryPipeline.Text.Range

/-!
# White space

White space separates tokens, and is cut from the ends of a source type and of a table row.  It is
the class of the characters that Unicode calls separators or bidirectional white space; zero width
spaces and the byte order mark are not in it.
-/

namespace QueryPipeline.Text

def blankRanges : List (Nat × Nat) :=
  [(0x09, 0x0d), (0x1c, 0x20), (0x85, 0x85), (0xa0, 0xa0), (0x1680, 0x1680), (0x2000, 0x200a),
   (0x2028, 0x2029), (0x202f, 0x202f), (0x205f, 0x205f), (0x3000, 0x3000)]

def isBlank (c : Char) : Bool :=
  inRanges blankRanges c.toNat

/-- Cut the white space at the start. -/
def trimStart (cs : List Char) : List Char :=
  cs.dropWhile isBlank

/-- Cut the white space at the end. -/
def trimEnd (cs : List Char) : List Char :=
  (cs.reverse.dropWhile isBlank).reverse

/-- Cut the white space at both ends. -/
def trim (s : String) : String :=
  String.ofList (trimEnd (trimStart s.toList))

end QueryPipeline.Text
