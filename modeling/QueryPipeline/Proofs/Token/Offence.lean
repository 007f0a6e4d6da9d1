import QueryPipeline.Proofs.Token.Compose
import QueryPipeline.Proofs.Token.Cover

/-!
# Where scanning stops

A text that cannot be scanned has a first place where nothing can be read.  What is in front of it
is scanned alone, and the error is decided there by one character and what follows it:

    '    and no quote that closes it       the string is not terminated
    "    and not another one behind it     the name is not terminated
    !    and no = behind it                the operator is unknown
    c    with which no token starts        the character is unexpected

`Offends` says this without the scanner, and a text fails exactly when it is scanned up to a place
and something offends there.  Two facts make this up.  A text that is cut off there has the same
tokens in front of it, since a span only depends on the first character behind it
(`Spans.of_head?`).  And a character that offends goes on with no token, so that the scan comes to
it (`Laid.scan_break`).
-/

namespace QueryPipeline

namespace Scanner

open Token

/-! ## What offends -/

/-- Reading on, and over the character behind each backslash, one comes to a single quote. -/
inductive Closes : List Char → Prop
  | quote (cs : List Char) : Closes ('\'' :: cs)
  | escape (c : Char) {cs : List Char} : Closes cs → Closes ('\\' :: c :: cs)
  | plain {c : Char} {cs : List Char} : c ≠ '\\' → Closes cs → Closes (c :: cs)

/-- No token starts with the character, and it is no white space. -/
structure Foreign (c : Char) : Prop where
  blank : Text.isBlank c = false
  letter : c.isAlpha = false
  underscore : c ≠ '_'
  digit : c.isDigit = false
  single : c ≠ '\''
  double : c ≠ '"'
  mark : c ∉ ['(', ')', ',', ';', '.']
  operator : c ∉ ['=', '!', '<', '>', '+', '-', '*', '/', '%']

/-- **What is wrong at a place**, by the characters from there on. -/
inductive Offends (place : Nat) : List Char → LexError → Prop
  | string {cs : List Char} : ¬Closes cs → Offends place ('\'' :: cs) (.unterminated '\'' place)
  | name {cs : List Char} : '"' ∉ cs → Offends place ('"' :: cs) (.unterminated '"' place)
  | operator {cs : List Char} : cs.head? ≠ some '=' →
      Offends place ('!' :: cs) (.unknownOperator "!" place)
  | character {c : Char} {cs : List Char} : Foreign c →
      Offends place (c :: cs) (.unexpectedCharacter c place)

theorem Offends.position_eq {place : Nat} {cs : List Char} {e : LexError}
    (h : Offends place cs e) : e.position = place := by
  cases h <;> rfl

/-! ## Errors of the readers -/

theorem stringBody_isSome_iff (cs : List Char) : (stringBody cs).isSome = true ↔ Closes cs := by
  fun_induction stringBody cs with
  | case1 =>
    refine iff_of_false (by decide) fun h => ?_
    cases h
  | case2 cs => exact ⟨fun _ => .quote cs, fun _ => rfl⟩
  | case3 hquote =>
    refine iff_of_false (by decide) fun h => ?_
    cases h with
    | plain hslash _ => exact absurd rfl hslash
  | case4 e cs hquote ih =>
    rw [Option.isSome_map, ih]
    refine ⟨.escape e, fun h => ?_⟩
    cases h with
    | escape _ h => exact h
    | plain hslash _ => exact absurd rfl hslash
  | case5 c cs hquote hslash ih =>
    rw [Option.isSome_map, ih]
    refine ⟨.plain hslash, fun h => ?_⟩
    cases h with
    | quote => exact absurd rfl hquote
    | escape => exact absurd rfl hslash
    | plain _ h => exact h

theorem stringBody_eq_none {cs : List Char} : stringBody cs = none ↔ ¬Closes cs := by
  rw [← stringBody_isSome_iff, Option.not_isSome_iff_eq_none]

/-- A character of operators is one by itself, apart from `!`. -/
theorem sign_of_isOperatorChar {c : Char} (h : isOperatorChar c = true) (hne : c ≠ '!') :
    (Sign.ofChars? [c]).isSome = true := by
  have hmem := List.contains_iff_mem.mp h
  simp only [List.mem_cons, List.not_mem_nil, or_false] at hmem
  rcases hmem with rfl | rfl | rfl | rfl | rfl | rfl | rfl | rfl | rfl
  case inr.inl => exact absurd rfl hne
  all_goals rfl

/-- Only `=` makes an operator with `!` in front of it. -/
theorem operator_exclamation {cs : List Char} (h : cs.head? ≠ some '=') (place : Nat) :
    operator place ('!' :: cs) = ⟨.error (.unknownOperator "!" place), 1⟩ := by
  have hchars : operatorChars ('!' :: cs) = ['!'] := by
    cases cs with
    | nil => rfl
    | cons d cs =>
      have hpair : ¬(Sign.ofChars? ['!', d]).isSome = true := by
        intro hsome
        have hmem := mem_of_sign hsome
        simp only [List.mem_cons, List.cons.injEq, reduceCtorEq, and_false, List.not_mem_nil,
          or_false, false_or, and_true, Char.reduceEq, true_and, false_and] at hmem
        exact h (congrArg some hmem)
      exact if_neg hpair
  have hsign : ¬(Sign.ofChars? ['!']).isSome = true := by decide
  rw [operator, hchars]
  exact if_neg hsign

theorem offends_of_operator {place : Nat} {c : Char} {cs : List Char} {e : LexError}
    (hc : isOperatorChar c = true) (h : (operator place (c :: cs)).outcome = .error e) :
    Offends place (c :: cs) e := by
  by_cases hne : c = '!'
  · subst hne
    by_cases hequals : cs.head? = some '='
    · obtain ⟨rest, rfl⟩ := List.head?_eq_some_iff.mp hequals
      cases h
    · rw [operator_exclamation hequals] at h
      cases h
      exact .operator hequals
  · have hsign : (Sign.ofChars? (operatorChars (c :: cs))).isSome = true := by
      rw [operatorChars]
      split
      · next hpair => exact hpair
      · exact sign_of_isOperatorChar hc hne
    rw [operator, if_pos hsign] at h
    cases h

theorem offends_of_string {place : Nat} {cs : List Char} {e : LexError}
    (h : (string place ('\'' :: cs)).outcome = .error e) : Offends place ('\'' :: cs) e := by
  unfold string at h
  cases hbody : stringBody (('\'' :: cs).drop 1) with
  | some found =>
    rw [hbody] at h
    cases h
  | none =>
    rw [hbody] at h
    cases h
    exact .string (stringBody_eq_none.mp hbody)

theorem offends_of_quotedName {place : Nat} {cs : List Char} {e : LexError}
    (h : (quotedName place ('"' :: cs)).outcome = .error e) : Offends place ('"' :: cs) e := by
  rw [quotedName, List.drop_one, List.tail_cons] at h
  by_cases hquote : cs.contains '"' = true
  · rw [if_pos hquote] at h
    cases h
  · rw [if_neg hquote] at h
    cases h
    exact .name fun hmem => hquote (List.contains_iff_mem.mpr hmem)

/-- **Where nothing can be read, something offends.** -/
theorem offends_of_next {place : Nat} {c : Char} {cs : List Char} {e : LexError}
    (hblank : Text.isBlank c = false) (h : (next place c cs).outcome = .error e) :
    Offends place (c :: cs) e := by
  rw [next, readerFor?] at h
  by_cases hword : isWordStart c = true
  · rw [if_pos hword] at h
    cases h
  rw [if_neg hword] at h
  by_cases hdigit : c.isDigit = true
  · rw [if_pos hdigit] at h
    cases h
  rw [if_neg hdigit] at h
  by_cases hsingle : c = '\''
  · subst hsingle
    rw [if_pos rfl] at h
    exact offends_of_string h
  rw [if_neg hsingle] at h
  by_cases hdouble : c = '"'
  · subst hdouble
    rw [if_pos rfl] at h
    exact offends_of_quotedName h
  rw [if_neg hdouble] at h
  by_cases hmark : (Mark.ofChars? [c]).isSome = true
  · rw [if_pos hmark] at h
    cases h
  rw [if_neg hmark] at h
  by_cases hoperator : isOperatorChar c = true
  · rw [if_pos hoperator] at h
    exact offends_of_operator hoperator h
  rw [if_neg hoperator] at h
  cases h
  obtain ⟨hletter, hunderscore⟩ := Bool.or_eq_false_iff.mp (Bool.not_eq_true _ ▸ hword)
  refine .character {
    blank := hblank
    letter := hletter
    underscore := by simpa using hunderscore
    digit := Bool.not_eq_true _ ▸ hdigit
    single := hsingle
    double := hdouble
    mark := fun hmem => hmark ?_
    operator := fun hmem => hoperator (List.contains_iff_mem.mpr hmem) }
  simp only [List.mem_cons, List.not_mem_nil, or_false] at hmem
  rcases hmem with rfl | rfl | rfl | rfl | rfl <;> rfl

/-! ## Characters that offend -/

theorem Foreign.isWordStart_eq {c : Char} (h : Foreign c) : isWordStart c = false := by
  rw [isWordStart, h.letter, Bool.false_or, beq_eq_false_iff_ne]
  exact h.underscore

theorem Foreign.readerFor?_eq {c : Char} (h : Foreign c) : readerFor? c = none := by
  have hmark : ¬(Mark.ofChars? [c]).isSome = true := by
    intro hsome
    have hmem := mem_of_mark hsome
    exact h.mark (by simpa using hmem)
  have hoperator : ¬isOperatorChar c = true :=
    fun hop => h.operator (List.contains_iff_mem.mp hop)
  rw [readerFor?, h.isWordStart_eq, h.digit, if_neg Bool.false_ne_true, if_neg Bool.false_ne_true,
    if_neg h.single, if_neg h.double, if_neg hmark, if_neg hoperator]

theorem Foreign.breaks {c : Char} (h : Foreign c) : Breaks c where
  word := by rw [isWordChar, h.isWordStart_eq, h.digit, Bool.or_self]
  point := by
    rintro rfl
    exact h.mark (by simp)
  sign d := by
    refine sign_pair ?_ ?_
    · rintro rfl
      exact h.operator (by simp)
    · rintro rfl
      exact h.operator (by simp)

/-- **A character that offends goes on with no token, and nothing can be read there.** -/
theorem Offends.next_eq {place : Nat} {cs : List Char} {e : LexError} (h : Offends place cs e) :
    ∃ c rest, cs = c :: rest ∧ Text.isBlank c = false ∧ Breaks c ∧
      (next place c rest).outcome = .error e := by
  have hbreaks {c : Char} (hword : isWordChar c = false) (hpoint : c ≠ '.') (hequals : c ≠ '=')
      (hgreater : c ≠ '>') : Breaks c :=
    ⟨hword, hpoint, fun _ => sign_pair hequals hgreater⟩
  cases h with
  | @string cs hcs =>
    refine ⟨'\'', cs, rfl, by decide, hbreaks (by decide) (by decide) (by decide) (by decide), ?_⟩
    have hreader : readerFor? '\'' = some .string := by decide
    have hbody : stringBody (('\'' :: cs).drop 1) = none := stringBody_eq_none.mpr hcs
    rw [next, hreader]
    show (Scanner.string place ('\'' :: cs)).outcome = _
    unfold Scanner.string
    rw [hbody]
  | @name cs hcs =>
    refine ⟨'"', cs, rfl, by decide, hbreaks (by decide) (by decide) (by decide) (by decide), ?_⟩
    have hreader : readerFor? '"' = some .quotedName := by decide
    have hquote : ¬cs.contains '"' = true := fun h => hcs (List.contains_iff_mem.mp h)
    rw [next, hreader]
    show (quotedName place ('"' :: cs)).outcome = _
    rw [quotedName, List.drop_one, List.tail_cons, if_neg hquote]
  | @operator cs hcs =>
    refine ⟨'!', cs, rfl, by decide, hbreaks (by decide) (by decide) (by decide) (by decide), ?_⟩
    have hreader : readerFor? '!' = some .operator := by decide
    rw [next, hreader]
    show (Scanner.operator place ('!' :: cs)).outcome = _
    rw [operator_exclamation hcs]
  | @character c cs hc =>
    refine ⟨c, cs, rfl, hc.blank, hc.breaks, ?_⟩
    rw [next, hc.readerFor?_eq]

/-! ## The first place where nothing can be read -/

/-- A scan that fails has come to something that offends, and the text in front of it has tokens. -/
theorem offends_of_scan (place : Nat) (cs : List Char) : ∀ {e : LexError},
    (scan place cs).1 = .error e → ∃ front rest ts, cs = front ++ rest ∧ Laid place front ts ∧
      Offends (place + front.length) rest e := by
  fun_induction scan place cs with
  | case1 place =>
    rintro e ⟨⟩
  | case2 place c cs hblank ih =>
    intro e h
    obtain ⟨front, rest, ts, rfl, hlaid, hoffends⟩ := ih h
    refine ⟨c :: front, rest, ts, rfl, .blank hblank hlaid, ?_⟩
    rwa [List.length_cons, Nat.add_comm front.length, ← Nat.add_assoc]
  | case3 place c cs hblank reading e =>
    rename_i he
    rintro _ ⟨⟩
    exact ⟨[], c :: cs, _, rfl, .done place, offends_of_next (Bool.not_eq_true _ ▸ hblank) he⟩
  | case4 place c cs hblank reading t ht tokens stop hscan =>
    rename_i ih
    intro e h
    rw [hscan] at ih
    cases tokens with
    | ok tokens => cases h
    | error e' =>
      cases h
      obtain ⟨span, behind, heq, hspan, hposition, hwidth⟩ := found_of_next ht
      obtain ⟨d, ds, rfl⟩ := List.exists_cons_of_ne_nil hspan.ne_nil
      rw [List.cons_append] at heq
      obtain ⟨rfl, rfl⟩ := List.cons.inj heq
      obtain ⟨front, rest, ts, hbehind, hlaid, hoffends⟩ := ih rfl
      rw [hwidth, List.length_cons, Nat.add_sub_cancel, List.drop_left] at hbehind
      subst hbehind
      have hcut : t.Spans (c :: ds) front := by
        refine hspan.of_head? fun d hd => ?_
        rw [List.head?_append, hd]
        rfl
      refine ⟨c :: ds ++ front, rest, t :: ts, by simp, .token hcut hposition ?_, ?_⟩
      · rwa [hwidth] at hlaid
      · rwa [List.length_append, ← Nat.add_assoc, ← hwidth]

/-- The scan comes to what offends behind a text. -/
theorem Laid.scan_offends {place : Nat} {front rest : List Char} {ts : List Token} {e : LexError}
    (h : Laid place front ts) (hrest : Offends (place + front.length) rest e) :
    (scan place (front ++ rest)).1 = .error e := by
  obtain ⟨c, rest, rfl, hblank, hbreaks, he⟩ := hrest.next_eq
  rw [h.scan_break hbreaks, scan_error hblank he]
  rfl

end Scanner

/-- **A text fails at the first place that offends, and only there.**  A text that fails is scanned
up to the position of its error, and offends there with this error.  And when a text is scanned up
to a place and offends there, it fails with that error. -/
theorem tokenize_error_at_offence (text : String) (e : LexError) :
    (tokenize text = .error e →
      ∃ (p : Nat) (us : List Token), e.position = p ∧ p < text.length ∧
        tokenize (String.ofList (text.toList.take p)) = .ok (us ++ [Token.endOfText p]) ∧
        Scanner.Offends p (text.toList.drop p) e) ∧
    ∀ (p : Nat) (us : List Token),
      tokenize (String.ofList (text.toList.take p)) = .ok us →
      Scanner.Offends p (text.toList.drop p) e → tokenize text = .error e ∧ e.position = p := by
  constructor
  · intro h
    obtain ⟨front, rest, ts, htext, hlaid, hoffends⟩ := Scanner.offends_of_scan 0 text.toList h
    rw [Nat.zero_add] at hoffends
    obtain ⟨c, cs, rfl, _⟩ := hoffends.next_eq
    obtain ⟨us, _, rfl, _⟩ := hlaid.covered (Nat.zero_le _) List.drop_zero
    refine ⟨front.length, us, hoffends.position_eq, ?_, ?_, ?_⟩
    · rw [← String.length_toList, htext, List.length_append, List.length_cons]
      omega
    · rw [htext, List.take_left, tokenize_ok_iff, String.toList_ofList]
      exact hlaid
    · rwa [htext, List.drop_left]
  · intro p us htokens hoffends
    rw [tokenize_ok_iff, String.toList_ofList] at htokens
    refine ⟨?_, hoffends.position_eq⟩
    have hlength : (text.toList.take p).length = p := by
      obtain ⟨c, cs, hdrop, _⟩ := hoffends.next_eq
      have hpos : 0 < (text.toList.drop p).length := by
        rw [hdrop]
        exact Nat.succ_pos _
      rw [List.length_drop] at hpos
      rw [List.length_take]
      omega
    have hscan := htokens.scan_offends (by rwa [Nat.zero_add, hlength])
    rwa [List.take_append_drop] at hscan

/-- The second quote is escaped, and closes nothing. -/
theorem tokenize_error_at_offence_escaped :
    tokenize "a='b\\'" = .error (.unterminated '\'' 2) := by
  have hfront : tokenize (String.ofList ("a='b\\'".toList.take 2)) =
      .ok [⟨.identifier, "a", 0⟩, ⟨.operator, "=", 1⟩, Token.endOfText 2] := by
    decide +kernel
  have hopen : ¬Scanner.Closes ['b', '\\', '\''] := by
    rw [← Scanner.stringBody_eq_none]
    decide
  obtain ⟨_, hfails⟩ := tokenize_error_at_offence "a='b\\'" (.unterminated '\'' 2)
  exact (hfails 2 _ hfront (.string hopen)).1

end QueryPipeline
