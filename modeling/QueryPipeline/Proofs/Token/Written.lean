import QueryPipeline.Proofs.Token.Span

/-!
# Writing tokens and scanning them

A token can be written down: a name goes between double quotes, a string between single quotes with
its quotes and backslashes escaped, and all other tokens are their own text.  The tokens that the
scanner makes are `Legible`, and legible tokens that are written with blanks between them are
scanned back:

    tokenize (spelled ts) = placed 0 ts, and the end

A written token is one of its spans, if nothing but white space, or the end, follows it
(`Legible.spans`), since the scanner reads words, numbers and operators as far as they go.
-/

namespace QueryPipeline

/-- Nothing, or a text that starts with white space. -/
def Text.Separates (cs : List Char) : Prop :=
  ∀ c ∈ cs.head?, Text.isBlank c = true

theorem Text.separates_nil : Text.Separates [] :=
  nofun

theorem Text.separates_cons {c : Char} (h : Text.isBlank c = true) (cs : List Char) :
    Text.Separates (c :: cs) := by
  rintro d ⟨⟩
  exact h

/-- The name of a keyword names no other kind before it. -/
theorem Kind.ofName_of_keyword {s : String} {w : Keyword} (h : Keyword.ofName? s = some w) :
    Kind.ofName s = .keyword w := by
  have hfind : (Keyword.all.map keyword).find? (·.name == s) = some (.keyword w) := by
    rw [List.find?_map]
    exact congrArg (Option.map keyword) h
  simp only [ofName, named, List.append_assoc, List.find?_append, hfind]
  rfl

namespace Scanner

/-! ## Characters that go on with nothing -/

/-- **The character goes on with no token**: with no word, no number and no sign. -/
structure Breaks (c : Char) : Prop where
  word : isWordChar c = false
  point : c ≠ '.'
  sign (d : Char) : Sign.ofChars? [d, c] = none

theorem Breaks.digit {c : Char} (h : Breaks c) : c.isDigit = false :=
  (Bool.or_eq_false_iff.mp h.word).2

/-- A sign of two characters ends with one of two. -/
theorem sign_pair {c d : Char} (hequals : d ≠ '=') (hgreater : d ≠ '>') :
    Sign.ofChars? [c, d] = none := by
  cases hs : Sign.ofChars? [c, d] with
  | none => rfl
  | some sign =>
    have hmem := mem_of_sign (Option.isSome_iff_exists.mpr ⟨sign, hs⟩)
    simp only [List.mem_cons, List.cons.injEq, reduceCtorEq, and_false, List.not_mem_nil,
      or_false, false_or, and_true] at hmem
    rcases hmem with ⟨_, rfl⟩ | ⟨_, rfl⟩ | ⟨_, rfl⟩ | ⟨_, rfl⟩
    · exact absurd rfl hequals
    · exact absurd rfl hgreater
    · exact absurd rfl hequals
    · exact absurd rfl hequals

theorem breaks_of_isBlank {c : Char} (h : Text.isBlank c = true) : Breaks c := by
  have hne : ∀ d, Text.isBlank d = false → c ≠ d := by
    rintro d hd rfl
    exact absurd h (Bool.not_eq_true _ ▸ hd)
  refine ⟨?_, hne '.' (by decide), fun d => sign_pair (hne '=' (by decide)) (hne '>' (by decide))⟩
  cases hw : isWordChar c with
  | false => rfl
  | true =>
    have := isWordChar_range hw
    have := Text.isBlank_range h
    omega

end Scanner

namespace Token

open Scanner

/-- What spans a token somewhere spans it in front of what goes on with no token. -/
theorem Spans.of_breaks {t : Token} {span rest ds : List Char} (h : t.Spans span rest)
    (hds : ∀ c ∈ ds.head?, Breaks c) : t.Spans span ds := by
  cases h with
  | keyword hword hkey _ => exact .keyword hword hkey fun c hc => (hds c hc).word
  | name hword hname _ => exact .name hword hname fun c hc => (hds c hc).word
  | number hcs _ => exact .number hcs fun c hc => ⟨(hds c hc).digit, fun _ => (hds c hc).point⟩
  | quotedName hcs => exact .quotedName hcs
  | string hcs => exact .string hcs
  | mark hcs => exact .mark hcs
  | operator hcs _ =>
    refine .operator hcs fun hlength c hc => ?_
    obtain ⟨d, rfl⟩ := List.length_eq_one_iff.mp hlength
    exact (hds c hc).sign d

/-- What spans a token somewhere spans it in front of white space and of the end. -/
theorem Spans.of_separates {t : Token} {span rest ds : List Char} (h : t.Spans span rest)
    (hds : Text.Separates ds) : t.Spans span ds :=
  h.of_breaks fun c hc => breaks_of_isBlank (hds c hc)

/-! ## Tokens in writing -/

/-- A character between single quotes: a quote or a backslash has a backslash in front of it. -/
def escaped (c : Char) : List Char :=
  if c = '\'' ∨ c = '\\' then ['\\', c] else [c]

/-- A token as it stands in a query. -/
def written (t : Token) : List Char :=
  match t.form with
  | .identifier => '"' :: (t.text.toList ++ ['"'])
  | .string => '\'' :: (t.text.toList.flatMap escaped ++ ['\''])
  | _ => t.text.toList

/-- A number: digits, with one point among them at most, and a digit in front. -/
def IsNumber (cs : List Char) : Prop :=
  (∀ c ∈ cs.head?, c.isDigit = true) ∧ cs ≠ [] ∧ numberChars true cs = cs

/-- The tokens that stand in a query, the end apart. -/
def Legible (t : Token) : Prop :=
  match t.form with
  | .keyword => IsWord t.text.toList ∧ (Keyword.ofName? (Text.upper t.text)).isSome = true
  | .identifier => '"' ∉ t.text.toList
  | .number => IsNumber t.text.toList
  | .string => True
  | .punctuation => (Mark.ofChars? t.text.toList).isSome = true
  | .operator => (Sign.ofChars? t.text.toList).isSome = true
  | .plain => False
  | .eof => False

theorem isNumber_iff {cs : List Char} : IsNumber cs ↔ IsDecimal cs := by
  constructor
  · rintro ⟨hstart, hne, hchars⟩
    obtain ⟨c, ds, rfl⟩ := List.exists_cons_of_ne_nil hne
    obtain ⟨rest, _, hrun⟩ := numberChars_split true (c :: ds)
    rw [hchars] at hrun
    exact ⟨⟨c, ds, rfl, hstart c rfl⟩, hrun.chars, hrun.count⟩
  · rintro ⟨⟨c, ds, rfl, hc⟩, hchars, hcount⟩
    refine ⟨?_, List.cons_ne_nil c ds, ?_⟩
    · rintro _ ⟨⟩
      exact hc
    · have hread := @numberChars_append (c :: ds) [] true ⟨hchars, hcount, nofun⟩
      rwa [List.append_nil] at hread

theorem unescapes_escaped (cs : List Char) : Unescapes (cs.flatMap escaped) cs := by
  induction cs with
  | nil => exact .done
  | cons c cs ih =>
    rw [List.flatMap_cons]
    by_cases h : c = '\'' ∨ c = '\\'
    · rw [escaped, if_pos h]
      exact ih.escape c
    · rw [escaped, if_neg h]
      rw [not_or] at h
      exact ih.plain h.1 h.2

/-- A written token stands for itself, if what follows separates. -/
theorem Legible.spans {t : Token} (ht : t.Legible) {ds : List Char} (hds : Text.Separates ds) :
    t.Spans t.written ds := by
  obtain ⟨form, text, position⟩ := t
  have htext : String.ofList text.toList = text := String.ofList_toList
  suffices h : Spans ⟨form, String.ofList text.toList, position⟩ (written ⟨form, text, position⟩) []
    by rw [htext] at h; exact h.of_separates hds
  cases form with
  | plain => cases ht
  | eof => cases ht
  | keyword =>
    refine .keyword ht.1 ?_ nofun
    rw [htext]
    exact Keyword.isSome_ofName?_iff.mp ht.2
  | identifier => exact .quotedName ht
  | number => exact .number (isNumber_iff.mp ht) nofun
  | string => exact .string (unescapes_escaped text.toList)
  | punctuation => exact .mark ht
  | operator => exact .operator ht nofun

/-- What has a span is legible. -/
theorem Spans.legible {t : Token} {span rest : List Char} (h : t.Spans span rest) : t.Legible := by
  cases h with
  | keyword hword hkey _ =>
    refine ⟨?_, Keyword.isSome_ofName?_iff.mpr hkey⟩
    rwa [String.toList_ofList]
  | name hword _ _ =>
    intro hquote
    rw [String.toList_ofList] at hquote
    exact absurd (hword.2.2 _ hquote) (by decide)
  | number hcs _ =>
    refine isNumber_iff.mpr ?_
    rwa [String.toList_ofList]
  | quotedName hcs =>
    intro hquote
    rw [String.toList_ofList] at hquote
    exact hcs hquote
  | string _ => exact trivial
  | mark hcs => simpa [Legible] using hcs
  | operator hcs _ => simpa [Legible] using hcs

/-- A token of a text has a kind, and it is not the end. -/
theorem Legible.exists_kind {t : Token} (h : t.Legible) :
    ∃ k, t.kind? = some k ∧ k ≠ .eof := by
  obtain ⟨form, text, position⟩ := t
  cases form with
  | keyword =>
    obtain ⟨w, hw⟩ := Option.isSome_iff_exists.mp h.2
    exact ⟨.keyword w, congrArg some (Kind.ofName_of_keyword hw), by simp⟩
  | identifier => exact ⟨.identifier, rfl, by simp⟩
  | number => exact ⟨.number, rfl, by simp⟩
  | string => exact ⟨.string, rfl, by simp⟩
  | punctuation =>
    obtain ⟨m, hm⟩ := Option.isSome_iff_exists.mp h
    exact ⟨.mark m, congrArg (Option.map Kind.mark) hm, by simp⟩
  | operator =>
    obtain ⟨o, ho⟩ := Option.isSome_iff_exists.mp h
    exact ⟨.sign o, congrArg (Option.map Kind.sign) ho, by simp⟩
  | plain => exact h.elim
  | eof => exact h.elim

end Token

namespace Scanner

/-- Scanning a written token with something behind it that separates. -/
theorem scan_written {t : Token} (ht : t.Legible) (place : Nat) {ds : List Char}
    (hds : Text.Separates ds) :
    (scan place (t.written ++ ds)).1 =
      (scan (place + t.written.length) ds).1.map (t.moved place :: ·) :=
  scan_span (ht.spans hds) place

/-- **Scanned tokens are legible**, and the end stands behind them. -/
theorem scan_legible (place : Nat) (cs : List Char) {ts : List Token}
    (h : (scan place cs).1 = .ok ts) :
    ∃ us stop, ts = us ++ [Token.endOfText stop] ∧ ∀ t ∈ us, t.Legible := by
  induction laid_of_scan place cs h with
  | done place => exact ⟨[], place, rfl, nofun⟩
  | blank _ hrest ih => exact ih (scan_ok_iff.mpr hrest)
  | token hspan _ hrest ih =>
    obtain ⟨us, stop, rfl, hus⟩ := ih (scan_ok_iff.mpr hrest)
    exact ⟨_ :: us, stop, rfl, List.forall_mem_cons.mpr ⟨hspan.legible, hus⟩⟩

end Scanner

/-! ## Tokens with blanks between them -/

namespace Token

/-- Tokens in writing, with a blank between two of them. -/
def spelled : List Token → List Char
  | [] => []
  | [t] => t.written
  | t :: u :: ts => t.written ++ ' ' :: spelled (u :: ts)

/-- Tokens at the places where they are spelled. -/
def placed (place : Nat) : List Token → List Token
  | [] => []
  | t :: ts => t.moved place :: placed (place + (t.written.length + 1)) ts

/-- The room that tokens and the blanks behind them take. -/
def width : List Token → Nat
  | [] => 0
  | t :: ts => t.written.length + 1 + width ts

theorem placed_cons (place : Nat) (t : Token) (ts : List Token) :
    placed place (t :: ts) = t.moved place :: placed (place + (t.written.length + 1)) ts :=
  rfl

theorem placed_append (place : Nat) (ts us : List Token) :
    placed place (ts ++ us) = placed place ts ++ placed (place + width ts) us := by
  induction ts generalizing place with
  | nil => rfl
  | cons t ts ih =>
    rw [List.cons_append, placed_cons, placed_cons, ih, List.cons_append, width, Nat.add_assoc]

end Token

/-- **Tokens that are written down are scanned back**, each at its place. -/
theorem Scanner.scan_spelled : ∀ (ts : List Token), (∀ t ∈ ts, t.Legible) → ∀ place,
    ∃ stop, (scan place (Token.spelled ts)).1 =
      .ok (Token.placed place ts ++ [Token.endOfText stop]) := by
  intro ts
  induction ts with
  | nil =>
    intro _ place
    exact ⟨place, by rw [Token.spelled, scan]; rfl⟩
  | cons t ts ih =>
    intro hts place
    have ht := hts t (by simp)
    cases ts with
    | nil =>
      have hscan := scan_written ht place Text.separates_nil
      rw [List.append_nil] at hscan
      refine ⟨place + t.written.length, ?_⟩
      rw [Token.spelled, hscan, scan]
      rfl
    | cons u us =>
      obtain ⟨stop, hrest⟩ := ih (fun v hv => hts v (by simp [hv])) (place + (t.written.length + 1))
      refine ⟨stop, ?_⟩
      have hblank : Text.isBlank ' ' = true := by decide
      rw [Token.spelled, scan_written ht place (Text.separates_cons hblank _), scan_blank hblank,
        Nat.add_assoc, hrest]
      rfl

theorem tokenize_spelled {ts : List Token} (hts : ∀ t ∈ ts, t.Legible) :
    ∃ stop, tokenize (String.ofList (Token.spelled ts)) =
      .ok (Token.placed 0 ts ++ [Token.endOfText stop]) := by
  rw [tokenize, String.toList_ofList]
  exact Scanner.scan_spelled ts hts 0

end QueryPipeline
