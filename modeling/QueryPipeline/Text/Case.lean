import QueryPipeline.Text.CaseTable
import QueryPipeline.Text.Range

/-!
# Letter case

Upper and lower case of a text.  A character has one form wherever it stands, and a form may take
several characters: `ß` becomes `SS`.  The exception is the capital sigma, whose small form at the
end of a word is a letter of its own: `ΟΔΟΣ` becomes `οδος` with `ς`.
-/

namespace QueryPipeline.Text

/-! ## Characters -/

def CaseRun.covers (r : CaseRun) (n : Nat) : Bool :=
  decide (n ≤ r.last) && decide ((n - r.first) % r.step = 0)

/-- The form of a code point by the first run that covers it.  The search ends at a run that begins
behind the code point. -/
def shiftBy : List CaseRun → Nat → Nat
  | [], n => n
  | r :: rest, n =>
    if n < r.first then n
    else if r.covers n then r.image + (n - r.first)
    else shiftBy rest n

/-- The form of a code point that is spelled out. -/
def spelling? : List (Nat × List Nat) → Nat → Option (List Nat)
  | [], _ => none
  | (m, codes) :: rest, n =>
    if n < m then none else if n = m then some codes else spelling? rest n

/-- The form of a character. -/
def caseForm (spelled : List (Nat × List Nat)) (runs : List CaseRun) (c : Char) : List Char :=
  match spelling? spelled c.toNat with
  | some codes => codes.map Char.ofNat
  | none => [Char.ofNat (shiftBy runs c.toNat)]

def upperChar (c : Char) : List Char :=
  caseForm upperSpelled upperRuns c

def lowerChar (c : Char) : List Char :=
  caseForm lowerSpelled lowerRuns c

/-! ## Words -/

def isCased (c : Char) : Bool :=
  inRanges casedRanges c.toNat

def isCaseIgnorable (c : Char) : Bool :=
  inRanges caseIgnorableRanges c.toNat

/-- Whether a word goes on in some characters, of which the next comes first. -/
def wordGoesOn (cs : List Char) : Bool :=
  (cs.dropWhile isCaseIgnorable).head?.any isCased

/-- Whether a word ends between some characters, of which the last comes first, and others. -/
def wordEnds (before after : List Char) : Bool :=
  wordGoesOn before && !wordGoesOn after

/-- The small form of a character between others. -/
def lowerBetween (before : List Char) (c : Char) (after : List Char) : List Char :=
  if c = 'Σ' then [if wordEnds before after then 'ς' else 'σ'] else lowerChar c

/-! ## Texts -/

/-- The small forms of characters that stand behind others, of which the last comes first. -/
def lowerFrom (before : List Char) : List Char → List Char
  | [] => []
  | c :: rest => lowerBetween before c rest ++ lowerFrom (c :: before) rest

def lower (s : String) : String :=
  String.ofList (lowerFrom [] s.toList)

def upper (s : String) : String :=
  String.ofList (s.toList.flatMap upperChar)

end QueryPipeline.Text
