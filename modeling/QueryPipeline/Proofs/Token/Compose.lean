import QueryPipeline.Proofs.Token.Written

/-!
# Texts with white space between them

A text in front of another, with white space between them, is scanned as both are scanned alone: the
tokens of the first without its end, and then what the second gives, at places that are shifted by
the length of the first and the blank.  That holds of the errors of the second too.

Two facts make this up.  A scanner does not depend on the place where it starts, which only shifts
the positions (`scan_shifted`).  And the tokens in a text stay the same when white space follows it,
since no token ends beyond the text and white space goes on with none (`Laid.scan_break`).
-/

namespace QueryPipeline

/-- The token, so many characters further on. -/
def Token.shifted (k : Nat) (t : Token) : Token :=
  { t with position := t.position + k }

/-- The error, so many characters further on. -/
def LexError.shifted (k : Nat) : LexError → LexError
  | .unexpectedCharacter c p => .unexpectedCharacter c (p + k)
  | .unterminated q p => .unterminated q (p + k)
  | .unknownOperator o p => .unknownOperator o (p + k)

/-- Only the first character behind a span matters. -/
theorem Token.Spans.of_head? {t : Token} {span rest ds : List Char} (h : t.Spans span rest)
    (hds : ∀ c ∈ ds.head?, c ∈ rest.head?) : t.Spans span ds := by
  cases h with
  | keyword hword hkey hrest => exact .keyword hword hkey fun c hc => hrest c (hds c hc)
  | name hword hname hrest => exact .name hword hname fun c hc => hrest c (hds c hc)
  | number hcs hrest => exact .number hcs fun c hc => hrest c (hds c hc)
  | quotedName hcs => exact .quotedName hcs
  | string hcs => exact .string hcs
  | mark hcs => exact .mark hcs
  | operator hcs hrest => exact .operator hcs fun hlength c hc => hrest hlength c (hds c hc)

/-- A span stays one when a character that goes on with no token is put behind the text. -/
theorem Token.Spans.before_break {t : Token} {span rest : List Char} (h : t.Spans span rest)
    {w : Char} (hw : Scanner.Breaks w) (ds : List Char) : t.Spans span (rest ++ w :: ds) := by
  cases rest with
  | nil =>
    refine h.of_breaks ?_
    rintro _ ⟨⟩
    exact hw
  | cons c rest => exact h.of_head? fun d hd => hd

namespace Scanner

open Token

/-! ## Scanning from a later place -/

/-- A reading, so many characters further on.  Its width is the same. -/
def Reading.shifted (k : Nat) (r : Reading) : Reading :=
  ⟨(r.outcome.map (Token.shifted k)).mapError (LexError.shifted k), r.width⟩

theorem read_shifted (reader : Reader) (k place : Nat) (cs : List Char) :
    reader.read (place + k) cs = (reader.read place cs).shifted k := by
  cases reader with
  | word => rfl
  | number => rfl
  | mark => rfl
  | string =>
    show string (place + k) cs = (string place cs).shifted k
    unfold string
    cases stringBody (cs.drop 1) with
    | none => rfl
    | some found => rfl
  | quotedName =>
    show quotedName (place + k) cs = (quotedName place cs).shifted k
    rw [quotedName, quotedName]
    split
    · rfl
    · rfl
  | operator =>
    show operator (place + k) cs = (operator place cs).shifted k
    rw [operator, operator]
    split
    · rfl
    · rfl

theorem next_shifted (k place : Nat) (c : Char) (cs : List Char) :
    next (place + k) c cs = (next place c cs).shifted k := by
  unfold next
  cases readerFor? c with
  | none => rfl
  | some reader => exact read_shifted reader k place (c :: cs)

/-- **Where a scan starts only shifts the positions** of the tokens and of the error. -/
theorem scan_shifted (k place : Nat) (cs : List Char) :
    (scan (place + k) cs).1 =
      ((scan place cs).1.map (List.map (Token.shifted k))).mapError (LexError.shifted k) := by
  fun_induction scan place cs with
  | case1 place =>
    rw [scan]
    rfl
  | case2 place c cs hblank ih =>
    rw [scan_blank hblank, Nat.add_right_comm, ih]
  | case3 place c cs hblank reading e he =>
    have hshifted : (next (place + k) c cs).outcome = .error (e.shifted k) := by
      rw [next_shifted, Reading.shifted, he]
      rfl
    rw [scan_error (Bool.not_eq_true _ ▸ hblank) hshifted]
    rfl
  | case4 place c cs hblank reading t ht tokens stop hscan ih =>
    have hshifted : (next (place + k) c cs).outcome = .ok (t.shifted k) := by
      rw [next_shifted, Reading.shifted, ht]
      rfl
    have hwidth : (next (place + k) c cs).width = reading.width := by rw [next_shifted]; rfl
    rw [scan_ok (Bool.not_eq_true _ ▸ hblank) hshifted, hwidth, Nat.add_right_comm, ih, hscan]
    cases tokens with
    | error e => rfl
    | ok tokens => rfl

/-! ## Scanning on behind a text -/

theorem map_nil_append (r : Except LexError (List Token)) : r.map ([] ++ ·) = r := by
  cases r with
  | error e => rfl
  | ok ts => rfl

theorem map_map_cons (r : Except LexError (List Token)) (t : Token) (ts : List Token) :
    (r.map (ts ++ ·)).map (t :: ·) = r.map (t :: ts ++ ·) := by
  cases r with
  | error e => rfl
  | ok us => rfl

theorem Laid.ne_nil {place : Nat} {cs : List Char} {ts : List Token} (h : Laid place cs ts) :
    ts ≠ [] := by
  induction h with
  | done place => exact List.cons_ne_nil _ _
  | blank _ _ ih => exact ih
  | token => exact List.cons_ne_nil _ _

/-- **The scan comes to what is behind a text** when the first character of that goes on with no
token. -/
theorem Laid.scan_break {place : Nat} {cs : List Char} {ts : List Token} (h : Laid place cs ts)
    {w : Char} (hw : Breaks w) (ds : List Char) :
    (scan place (cs ++ w :: ds)).1 =
      (scan (place + cs.length) (w :: ds)).1.map (ts.dropLast ++ ·) := by
  induction h with
  | done place => exact (map_nil_append _).symm
  | @blank place c cs ts hblank _ ih =>
    rw [List.cons_append, scan_blank hblank, ih, List.length_cons, Nat.add_assoc,
      Nat.add_comm 1]
  | @token place t span rest ts hspan hposition hrest ih =>
    rw [List.append_assoc, scan_span (hspan.before_break hw ds), moved_eq hposition, ih,
      List.length_append, ← Nat.add_assoc, List.dropLast_cons_of_ne_nil hrest.ne_nil, map_map_cons]

/-- White space behind a text goes on with none of its tokens, so that the scan comes to what is
behind the white space. -/
theorem Laid.scan_append {place : Nat} {cs : List Char} {ts : List Token} (h : Laid place cs ts)
    {w : Char} (hw : Text.isBlank w = true) (ds : List Char) :
    (scan place (cs ++ w :: ds)).1 =
      (scan (place + cs.length + 1) ds).1.map (ts.dropLast ++ ·) := by
  rw [h.scan_break (breaks_of_isBlank hw), scan_blank hw]

end Scanner

/-- **Scanning composes over white space.**  Behind a text that can be scanned and a blank, another
text is scanned as it is alone, with the same tokens or the same error, further on. -/
theorem tokenize_append {a : String} {ts : List Token} (ha : tokenize a = .ok ts) {w : Char}
    (hw : Text.isBlank w = true) (b : String) :
    (∀ us, tokenize b = .ok us → tokenize (a ++ w.toString ++ b) =
        .ok (ts.dropLast ++ us.map (Token.shifted (a.length + 1)))) ∧
      ∀ e, tokenize b = .error e →
        tokenize (a ++ w.toString ++ b) = .error (e.shifted (a.length + 1)) := by
  have htext : (a ++ w.toString ++ b).toList = a.toList ++ w :: b.toList := by
    simp [Char.toString]
  have hscan : tokenize (a ++ w.toString ++ b) =
      (((tokenize b).map (List.map (Token.shifted (a.length + 1)))).mapError
        (LexError.shifted (a.length + 1))).map (ts.dropLast ++ ·) := by
    rw [tokenize, htext, (tokenize_ok_iff.mp ha).scan_append hw, String.length_toList,
      Nat.add_assoc, Scanner.scan_shifted, tokenize]
  constructor
  · intro us hb
    rw [hscan, hb]
    rfl
  · intro e hb
    rw [hscan, hb]
    rfl

/-- A number in front of a text that starts with a digit, and one whose string has no end. -/
theorem tokenize_append_digits :
    let ts : List Token :=
      [⟨.identifier, "a", 0⟩, ⟨.operator, "<", 1⟩, ⟨.number, "1.", 2⟩, ⟨.eof, "", 4⟩]
    let us : List Token := [⟨.number, "5", 0⟩, ⟨.operator, "=", 1⟩, ⟨.eof, "", 2⟩]
    tokenize "a<1." = .ok ts ∧ Text.isBlank '\n' = true ∧ tokenize "5=" = .ok us ∧
      tokenize "a<1.\n5=" = .ok
        [⟨.identifier, "a", 0⟩, ⟨.operator, "<", 1⟩, ⟨.number, "1.", 2⟩, ⟨.number, "5", 5⟩,
         ⟨.operator, "=", 6⟩, ⟨.eof, "", 7⟩] ∧
      tokenize "5 'x" = .error (.unterminated '\'' 2) ∧
      tokenize "a<1.\n5 'x" = .error (.unterminated '\'' 7) := by
  intro ts us
  have hts : tokenize "a<1." = .ok ts := by decide +kernel
  have hus : tokenize "5=" = .ok us := by decide +kernel
  have herror : tokenize "5 'x" = .error (.unterminated '\'' 2) := by decide +kernel
  have hblank : Text.isBlank '\n' = true := by decide
  exact ⟨hts, hblank, hus, (tokenize_append hts hblank "5=").1 us hus, herror,
    (tokenize_append hts hblank "5 'x").2 _ herror⟩

end QueryPipeline
