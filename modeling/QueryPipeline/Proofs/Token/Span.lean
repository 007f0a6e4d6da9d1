import Mathlib.Data.List.TakeWhile
import QueryPipeline.Token.Scanner

/-!
# What stands in a text for a token

A token of a text has a span, the characters that stand for it.  `Token.Spans t span rest` says
which characters can stand for which token, and in front of which rest of the text.  Words, numbers
and operators go on as far as they can, so the rest must not go on with them.

A text with tokens in it is `Laid` out: white space, and the spans of the tokens at their places, up
to the end.  The scanner finds exactly that,

    (scan place cs).1 = .ok ts  ↔  Laid place cs ts.

Everything that holds of the tokens of a text is shown along the layout, and the scanner does not
have to be opened again.  The readers are tied to spans in both directions: what a reader finds has
the span that it took (`found_of_next`), and in front of a span its reader finds the token
(`Spans.next_eq`).
-/

namespace QueryPipeline

/-! ## Characters -/

/-- White space is outside the visible ASCII characters. -/
theorem Text.isBlank_range {c : Char} (h : Text.isBlank c = true) :
    c.toNat ≤ 0x20 ∨ 0x7f < c.toNat := by
  obtain ⟨r, hr, hlo, hhi⟩ := Text.exists_of_inRanges h
  have hall : ∀ r ∈ Text.blankRanges, r.2 ≤ 0x20 ∨ 0x7f < r.1 := by decide
  have := hall r hr
  omega

theorem Text.not_isBlank {c : Char} (hlo : 0x20 < c.toNat) (hhi : c.toNat ≤ 0x7f) :
    Text.isBlank c = false := by
  cases h : Text.isBlank c with
  | false => rfl
  | true =>
    have := Text.isBlank_range h
    omega

namespace Scanner

theorem isDigit_range {c : Char} (h : c.isDigit = true) : 0x30 ≤ c.toNat ∧ c.toNat ≤ 0x39 := by
  simp only [Char.isDigit, Bool.and_eq_true, decide_eq_true_eq, UInt32.le_iff_toNat_le] at h
  exact h

theorem isWordStart_range {c : Char} (h : isWordStart c = true) :
    0x41 ≤ c.toNat ∧ c.toNat ≤ 0x7a := by
  rw [isWordStart, Bool.or_eq_true, beq_iff_eq] at h
  rcases h with h | rfl
  · rcases Bool.or_eq_true_iff.1 h with hupper | hlower
    · obtain ⟨hlo, hhi⟩ := of_decide_eq_true hupper
      have h₁ : 65 ≤ c.toNat := hlo
      have h₂ : c.toNat ≤ 90 := hhi
      omega
    · obtain ⟨hlo, hhi⟩ := Bool.and_eq_true_iff.1 hlower
      have h₁ : 97 ≤ c.toNat := of_decide_eq_true hlo
      have h₂ : c.toNat ≤ 122 := of_decide_eq_true hhi
      omega
  · decide

theorem isWordChar_range {c : Char} (h : isWordChar c = true) :
    0x30 ≤ c.toNat ∧ c.toNat ≤ 0x7a := by
  rw [isWordChar, Bool.or_eq_true] at h
  rcases h with h | h
  · have := isWordStart_range h
    omega
  · have := isDigit_range h
    omega

theorem isWordChar_of_isWordStart {c : Char} (h : isWordStart c = true) : isWordChar c = true := by
  rw [isWordChar, h, Bool.true_or]

theorem isWordStart_of_isDigit {c : Char} (h : c.isDigit = true) : isWordStart c = false := by
  cases hw : isWordStart c with
  | false => rfl
  | true =>
    have := isWordStart_range hw
    have := isDigit_range h
    omega

end Scanner

theorem Keyword.isSome_ofName?_iff {s : String} :
    (Keyword.ofName? s).isSome = true ↔ ∃ k : Keyword, k.name = s := by
  constructor
  · intro h
    obtain ⟨k, hk⟩ := Option.isSome_iff_exists.mp h
    exact ⟨k, by simpa using List.find?_some hk⟩
  · rintro ⟨k, rfl⟩
    exact List.find?_isSome.mpr ⟨k, k.mem_all, beq_self_eq_true _⟩

namespace Scanner

theorem wordForm_of_keyword {s : String} (h : ∃ k : Keyword, k.name = Text.upper s) :
    wordForm s = .keyword := by
  rw [wordForm, if_pos (Keyword.isSome_ofName?_iff.mpr h)]

theorem wordForm_of_name {s : String} (h : ¬∃ k : Keyword, k.name = Text.upper s) :
    wordForm s = .identifier := by
  rw [wordForm, if_neg fun hkey => h (Keyword.isSome_ofName?_iff.mp hkey)]

end Scanner

/-! ## Spans -/

namespace Token

open Scanner

/-- A word: a letter or underscore, and letters, digits and underscores behind it. -/
def IsWord (cs : List Char) : Prop :=
  (∀ c ∈ cs.head?, isWordStart c = true) ∧ cs ≠ [] ∧ ∀ c ∈ cs, isWordChar c = true

/-- Digits and one point at most, with a digit in front. -/
def IsDecimal (cs : List Char) : Prop :=
  (∃ c ds, cs = c :: ds ∧ c.isDigit = true) ∧ (∀ c ∈ cs, c.isDigit = true ∨ c = '.') ∧
    cs.count '.' ≤ 1

/-- Characters between single quotes, and the value that they have: a backslash makes the character
behind it part of the value, and no quote stands without a backslash. -/
inductive Unescapes : List Char → List Char → Prop
  | done : Unescapes [] []
  | plain {c : Char} {cs value : List Char} : c ≠ '\'' → c ≠ '\\' → Unescapes cs value →
      Unescapes (c :: cs) (c :: value)
  | escape (c : Char) {cs value : List Char} : Unescapes cs value →
      Unescapes ('\\' :: c :: cs) (c :: value)

/-- **The characters that stand for a token** in front of the rest of a text. -/
inductive Spans : Token → List Char → List Char → Prop
  | keyword {cs rest : List Char} {place : Int} : IsWord cs →
      (∃ k : Keyword, k.name = Text.upper (String.ofList cs)) →
      (∀ c ∈ rest.head?, isWordChar c = false) → Spans ⟨.keyword, String.ofList cs, place⟩ cs rest
  | name {cs rest : List Char} {place : Int} : IsWord cs →
      (¬∃ k : Keyword, k.name = Text.upper (String.ofList cs)) →
      (∀ c ∈ rest.head?, isWordChar c = false) →
      Spans ⟨.identifier, String.ofList cs, place⟩ cs rest
  | number {cs rest : List Char} {place : Int} : IsDecimal cs →
      (∀ c ∈ rest.head?, c.isDigit = false ∧ ('.' ∉ cs → c ≠ '.')) →
      Spans ⟨.number, String.ofList cs, place⟩ cs rest
  | quotedName {cs rest : List Char} {place : Int} : '"' ∉ cs →
      Spans ⟨.identifier, String.ofList cs, place⟩ ('"' :: (cs ++ ['"'])) rest
  | string {cs value rest : List Char} {place : Int} : Unescapes cs value →
      Spans ⟨.string, String.ofList value, place⟩ ('\'' :: (cs ++ ['\''])) rest
  | mark {cs rest : List Char} {place : Int} : (Mark.ofChars? cs).isSome = true →
      Spans ⟨.punctuation, String.ofList cs, place⟩ cs rest
  | operator {cs rest : List Char} {place : Int} : (Sign.ofChars? cs).isSome = true →
      (cs.length = 1 → ∀ c ∈ rest.head?, Sign.ofChars? (cs ++ [c]) = none) →
      Spans ⟨.operator, String.ofList cs, place⟩ cs rest

/-- The token at another place. -/
def moved (t : Token) (place : Nat) : Token :=
  { t with position := place }

theorem moved_eq {t : Token} {place : Nat} (h : t.position = place) : t.moved place = t := by
  rw [moved, ← h]

/-- A word is a reserved word or a name. -/
theorem spans_word {cs rest : List Char} (place : Int) (hcs : IsWord cs)
    (hrest : ∀ c ∈ rest.head?, isWordChar c = false) :
    Spans ⟨wordForm (String.ofList cs), String.ofList cs, place⟩ cs rest := by
  by_cases hkey : ∃ k : Keyword, k.name = Text.upper (String.ofList cs)
  · rw [wordForm_of_keyword hkey]
    exact .keyword hcs hkey hrest
  · rw [wordForm_of_name hkey]
    exact .name hcs hkey hrest

end Token

namespace Scanner

open Token

/-! ## Runs of characters -/

theorem takeWhile_append_stop {p : Char → Bool} {cs rest : List Char}
    (hcs : ∀ c ∈ cs, p c = true) (hrest : ∀ c ∈ rest.head?, p c = false) :
    (cs ++ rest).takeWhile p = cs := by
  rw [List.takeWhile_append_of_pos hcs]
  cases rest with
  | nil => simp
  | cons c rest => simp [hrest c rfl]

theorem takeWhile_split (p : Char → Bool) (cs : List Char) :
    ∃ rest, cs = cs.takeWhile p ++ rest ∧ ∀ c ∈ rest.head?, p c = false := by
  refine ⟨cs.dropWhile p, List.takeWhile_append_dropWhile.symm, ?_⟩
  intro c hc
  have hhead := List.head?_dropWhile_not p cs
  rw [hc] at hhead
  simpa using hhead

/-- Digits with so many points among them at most. -/
structure IsRun (points : Nat) (cs rest : List Char) : Prop where
  chars : ∀ c ∈ cs, c.isDigit = true ∨ c = '.'
  count : cs.count '.' ≤ points
  stop : ∀ c ∈ rest.head?, c.isDigit = false ∧ (cs.count '.' < points → c ≠ '.')

theorem numberChars_append {cs rest : List Char} {point : Bool}
    (h : IsRun point.toNat cs rest) : numberChars point (cs ++ rest) = cs := by
  induction cs generalizing point with
  | nil =>
    cases rest with
    | nil => rfl
    | cons d rest =>
      obtain ⟨hdigit, hpoint⟩ := h.stop d rfl
      cases point with
      | true => simp [numberChars, hdigit, hpoint Nat.one_pos]
      | false => simp [numberChars, hdigit]
  | cons c cs ih =>
    obtain ⟨hchars, hcount, hstop⟩ := h
    rw [List.cons_append, numberChars]
    by_cases hc : c = '.'
    · subst hc
      rw [List.count_cons_self] at hcount hstop
      cases point with
      | false => simp at hcount
      | true =>
        rw [if_pos rfl, if_pos rfl, ih]
        refine ⟨fun d hd => hchars d (List.mem_cons_of_mem _ hd), ?_, fun d hd => ?_⟩
        · simpa using hcount
        · exact ⟨(hstop d hd).1, fun hlt => absurd hlt (Nat.not_lt_zero _)⟩
    · rw [List.count_cons_of_ne hc] at hcount hstop
      rw [if_neg hc, if_pos ((hchars c List.mem_cons_self).resolve_right hc), ih]
      exact ⟨fun d hd => hchars d (List.mem_cons_of_mem _ hd), hcount, hstop⟩

theorem numberChars_split (point : Bool) (cs : List Char) :
    ∃ rest, cs = numberChars point cs ++ rest ∧
      IsRun point.toNat (numberChars point cs) rest := by
  induction cs generalizing point with
  | nil => exact ⟨[], rfl, nofun, Nat.zero_le _, nofun⟩
  | cons c cs ih =>
    rw [numberChars]
    by_cases hc : c = '.'
    · subst hc
      cases point with
      | false =>
        refine ⟨'.' :: cs, rfl, nofun, Nat.zero_le _, ?_⟩
        rintro _ ⟨⟩
        exact ⟨rfl, fun hlt => absurd hlt (Nat.lt_irrefl _)⟩
      | true =>
        obtain ⟨rest, heq, hchars, hcount, hstop⟩ := ih false
        rw [if_pos rfl, if_pos rfl]
        refine ⟨rest, congrArg _ heq, ?_, ?_, fun d hd => ⟨(hstop d hd).1, ?_⟩⟩
        · exact List.forall_mem_cons.mpr ⟨.inr rfl, hchars⟩
        · rw [List.count_cons_self]
          exact Nat.succ_le_succ hcount
        · rw [List.count_cons_self]
          intro hlt
          exact absurd (Nat.lt_of_succ_lt_succ hlt) (Nat.not_lt_zero _)
    · rw [if_neg hc]
      by_cases hdigit : c.isDigit = true
      · obtain ⟨rest, heq, hchars, hcount, hstop⟩ := ih point
        rw [if_pos hdigit]
        refine ⟨rest, congrArg _ heq, ?_, ?_, ?_⟩
        · exact List.forall_mem_cons.mpr ⟨.inl hdigit, hchars⟩
        · rw [List.count_cons_of_ne hc]
          exact hcount
        · rw [List.count_cons_of_ne hc]
          exact hstop
      · rw [if_neg hdigit]
        refine ⟨c :: cs, rfl, nofun, Nat.zero_le _, ?_⟩
        rintro _ ⟨⟩
        exact ⟨Bool.not_eq_true _ ▸ hdigit, fun _ => hc⟩

/-! ## Literals in quotes -/

theorem stringBody_unescapes {cs value : List Char} (h : Unescapes cs value) (rest : List Char) :
    stringBody (cs ++ '\'' :: rest) = some (value, cs.length + 1) := by
  induction h with
  | done =>
    rw [List.nil_append, stringBody.eq_def]
    rfl
  | plain hquote hslash _ ih =>
    rw [List.cons_append, stringBody.eq_def]
    simp [hquote, hslash, ih]
  | escape c _ ih =>
    rw [List.cons_append, List.cons_append, stringBody.eq_def]
    simp [ih]

theorem unescapes_of_stringBody {cs : List Char} : ∀ {value : List Char} {n : Nat},
    stringBody cs = some (value, n) →
      ∃ body rest, cs = body ++ '\'' :: rest ∧ Unescapes body value ∧ n = body.length + 1 := by
  fun_induction stringBody cs with
  | case1 => exact nofun
  | case2 cs =>
    rintro value n ⟨⟩
    exact ⟨[], cs, rfl, .done, rfl⟩
  | case3 hquote => exact nofun
  | case4 e cs hquote ih =>
    intro value n h
    obtain ⟨⟨value, n⟩, hbody, heq⟩ := Option.map_eq_some_iff.mp h
    cases heq
    obtain ⟨body, rest, rfl, hvalue, rfl⟩ := ih hbody
    exact ⟨'\\' :: e :: body, rest, rfl, hvalue.escape e, rfl⟩
  | case5 c cs hquote hslash ih =>
    intro value n h
    obtain ⟨⟨value, n⟩, hbody, heq⟩ := Option.map_eq_some_iff.mp h
    cases heq
    obtain ⟨body, rest, rfl, hvalue, rfl⟩ := ih hbody
    exact ⟨c :: body, rest, rfl, hvalue.plain hquote hslash, rfl⟩

/-! ## Signs and marks -/

/-- The spellings of signs. -/
theorem mem_of_sign {cs : List Char} (h : (Sign.ofChars? cs).isSome = true) :
    cs ∈ [['='], ['!', '='], ['<', '>'], ['<'], ['<', '='], ['>'], ['>', '='], ['+'], ['-'], ['*'],
      ['/'], ['%']] := by
  unfold Sign.ofChars? at h
  split at h
  case h_13 => cases h
  all_goals simp

theorem mem_of_mark {cs : List Char} (h : (Mark.ofChars? cs).isSome = true) :
    cs ∈ [['('], [')'], [','], [';'], ['.']] := by
  unfold Mark.ofChars? at h
  split at h
  case h_6 => cases h
  all_goals simp

theorem operatorChars_append {cs rest : List Char} (h : (Sign.ofChars? cs).isSome = true)
    (hrest : cs.length = 1 → ∀ c ∈ rest.head?, Sign.ofChars? (cs ++ [c]) = none) :
    operatorChars (cs ++ rest) = cs := by
  have hone : ∀ c, cs = [c] → operatorChars (cs ++ rest) = cs := by
    rintro c rfl
    cases rest with
    | nil => simp [operatorChars, h]
    | cons d rest =>
      have hnone : Sign.ofChars? [c, d] = none := hrest rfl d rfl
      simp [operatorChars, hnone]
  have hmem := mem_of_sign h
  simp only [List.mem_cons, List.not_mem_nil, or_false] at hmem
  rcases hmem with rfl | rfl | rfl | rfl | rfl | rfl | rfl | rfl | rfl | rfl | rfl | rfl
  all_goals first | exact hone _ rfl | rfl

/-- An operator takes two characters if they are one, and else the second does not go on with the
first. -/
theorem operatorChars_split (c : Char) (cs : List Char) :
    ∃ rest, c :: cs = operatorChars (c :: cs) ++ rest ∧
      ((operatorChars (c :: cs)).length = 1 →
        ∀ d ∈ rest.head?, Sign.ofChars? (operatorChars (c :: cs) ++ [d]) = none) := by
  unfold operatorChars
  split
  · next hpair =>
    refine ⟨(c :: cs).drop 2, (List.take_append_drop 2 _).symm, fun hlength d hd => ?_⟩
    cases cs with
    | nil => cases hd
    | cons e cs => cases hlength
  · next hpair =>
    refine ⟨cs, by simp, fun _ d hd => ?_⟩
    cases cs with
    | nil => cases hd
    | cons e cs =>
      cases hd
      exact Option.not_isSome_iff_eq_none.mp hpair

/-! ## What the readers find -/

/-- In front of the characters stands the span of a token, of so many characters. -/
def Found (place : Nat) (cs : List Char) (t : Token) (width : Nat) : Prop :=
  ∃ span rest, cs = span ++ rest ∧ t.Spans span rest ∧ t.position = place ∧ width = span.length

theorem found_of_word {place : Nat} {c : Char} {cs : List Char} {t : Token}
    (hc : isWordStart c = true) (h : (word place (c :: cs)).outcome = .ok t) :
    Found place (c :: cs) t (word place (c :: cs)).width := by
  obtain ⟨rest, heq, hrest⟩ := takeWhile_split isWordChar (c :: cs)
  obtain rfl := Except.ok.inj h
  refine ⟨_, rest, heq, spans_word _ ⟨?_, ?_, ?_⟩ hrest, rfl, rfl⟩
  · rw [List.takeWhile_cons_of_pos (isWordChar_of_isWordStart hc)]
    rintro _ ⟨⟩
    exact hc
  · rw [List.takeWhile_cons_of_pos (isWordChar_of_isWordStart hc)]
    exact List.cons_ne_nil _ _
  · exact fun d hd => List.mem_takeWhile_imp hd

theorem found_of_number {place : Nat} {c : Char} {cs : List Char} {t : Token}
    (hc : c.isDigit = true) (h : (number place (c :: cs)).outcome = .ok t) :
    Found place (c :: cs) t (number place (c :: cs)).width := by
  obtain ⟨rest, heq, hrun⟩ := numberChars_split true (c :: cs)
  have hfirst : numberChars true (c :: cs) = c :: numberChars true cs := by
    have hpoint : c ≠ '.' := by
      rintro rfl
      exact absurd hc (by decide)
    rw [numberChars, if_neg hpoint, if_pos hc]
  obtain rfl := Except.ok.inj h
  have hdecimal : Token.IsDecimal (numberChars true (c :: cs)) :=
    ⟨⟨c, _, hfirst, hc⟩, hrun.chars, hrun.count⟩
  refine ⟨_, rest, heq, .number hdecimal fun d hd => ?_, rfl, rfl⟩
  refine ⟨(hrun.stop d hd).1, fun hnone => (hrun.stop d hd).2 ?_⟩
  rw [List.count_eq_zero_of_not_mem hnone]
  exact Nat.one_pos

theorem found_of_string {place : Nat} {cs : List Char} {t : Token}
    (h : (string place ('\'' :: cs)).outcome = .ok t) :
    Found place ('\'' :: cs) t (string place ('\'' :: cs)).width := by
  unfold string at h ⊢
  cases hbody : stringBody (('\'' :: cs).drop 1) with
  | none =>
    rw [hbody] at h
    cases h
  | some found =>
    obtain ⟨value, n⟩ := found
    rw [hbody] at h
    cases h
    obtain ⟨body, rest, heq, hvalue, rfl⟩ := unescapes_of_stringBody hbody
    refine ⟨'\'' :: (body ++ ['\'']), rest, ?_, .string hvalue, rfl, by simp⟩
    rw [List.cons_append, List.append_assoc]
    exact congrArg _ heq

theorem found_of_quotedName {place : Nat} {cs : List Char} {t : Token}
    (h : (quotedName place ('"' :: cs)).outcome = .ok t) :
    Found place ('"' :: cs) t (quotedName place ('"' :: cs)).width := by
  obtain ⟨rest, heq, hrest⟩ := takeWhile_split (· != '"') cs
  have hname : '"' ∉ cs.takeWhile (· != '"') := by
    intro hquote
    simpa using List.mem_takeWhile_imp hquote
  rw [quotedName, List.drop_one, List.tail_cons] at h ⊢
  by_cases hquote : cs.contains '"' = true
  · rw [if_pos hquote] at h ⊢
    cases h
    cases rest with
    | nil =>
      rw [List.append_nil] at heq
      rw [← heq] at hname
      exact absurd (List.contains_iff_mem.mp hquote) hname
    | cons d rest =>
      obtain rfl : d = '"' := by simpa using hrest d rfl
      refine ⟨'"' :: (cs.takeWhile (· != '"') ++ ['"']), rest, ?_, .quotedName hname, rfl, by simp⟩
      rw [List.cons_append, List.append_assoc]
      exact congrArg _ heq
  · rw [if_neg hquote] at h
    cases h

theorem found_of_mark {place : Nat} {c : Char} {cs : List Char} {t : Token}
    (hc : (Mark.ofChars? [c]).isSome = true) (h : (mark place (c :: cs)).outcome = .ok t) :
    Found place (c :: cs) t (mark place (c :: cs)).width := by
  obtain rfl := Except.ok.inj h
  exact ⟨[c], cs, rfl, .mark hc, rfl, rfl⟩

theorem found_of_operator {place : Nat} {c : Char} {cs : List Char} {t : Token}
    (h : (operator place (c :: cs)).outcome = .ok t) :
    Found place (c :: cs) t (operator place (c :: cs)).width := by
  obtain ⟨rest, heq, hrest⟩ := operatorChars_split c cs
  rw [operator] at h ⊢
  by_cases hsign : (Sign.ofChars? (operatorChars (c :: cs))).isSome = true
  · rw [if_pos hsign] at h ⊢
    cases h
    exact ⟨_, rest, heq, .operator hsign hrest, rfl, rfl⟩
  · rw [if_neg hsign] at h
    cases h

/-- **What is found has the span that was taken.** -/
theorem found_of_next {place : Nat} {c : Char} {cs : List Char} {t : Token}
    (h : (next place c cs).outcome = .ok t) :
    Found place (c :: cs) t (next place c cs).width := by
  rw [next, readerFor?] at h ⊢
  by_cases hword : isWordStart c = true
  · rw [if_pos hword] at h ⊢
    exact found_of_word hword h
  rw [if_neg hword] at h ⊢
  by_cases hdigit : c.isDigit = true
  · rw [if_pos hdigit] at h ⊢
    exact found_of_number hdigit h
  rw [if_neg hdigit] at h ⊢
  by_cases hsingle : c = '\''
  · subst hsingle
    rw [if_pos rfl] at h ⊢
    exact found_of_string h
  rw [if_neg hsingle] at h ⊢
  by_cases hdouble : c = '"'
  · subst hdouble
    rw [if_pos rfl] at h ⊢
    exact found_of_quotedName h
  rw [if_neg hdouble] at h ⊢
  by_cases hmark : (Mark.ofChars? [c]).isSome = true
  · rw [if_pos hmark] at h ⊢
    exact found_of_mark hmark h
  rw [if_neg hmark] at h ⊢
  by_cases hoperator : isOperatorChar c = true
  · rw [if_pos hoperator] at h ⊢
    exact found_of_operator h
  · rw [if_neg hoperator] at h
    cases h

/-! ## The readers in front of a span -/

theorem word_append {cs rest : List Char} (hcs : ∀ c ∈ cs, isWordChar c = true)
    (hrest : ∀ c ∈ rest.head?, isWordChar c = false) (place : Nat) :
    word place (cs ++ rest) =
      ⟨.ok ⟨wordForm (String.ofList cs), String.ofList cs, place⟩, cs.length⟩ := by
  simp only [word, takeWhile_append_stop hcs hrest]

/-- A span has a first character, which is no white space and tells the reader. -/
theorem next_word {cs rest : List Char} (hcs : IsWord cs)
    (hrest : ∀ c ∈ rest.head?, isWordChar c = false) (place : Nat) :
    ∃ c ds, cs = c :: ds ∧ Text.isBlank c = false ∧ next place c (ds ++ rest) =
      ⟨.ok ⟨wordForm (String.ofList cs), String.ofList cs, place⟩, cs.length⟩ := by
  obtain ⟨hstart, hne, hchars⟩ := hcs
  obtain ⟨c, ds, rfl⟩ := List.exists_cons_of_ne_nil hne
  have hc : isWordStart c = true := hstart c rfl
  have hrange := isWordStart_range hc
  refine ⟨c, ds, rfl, Text.not_isBlank (by omega) (by omega), ?_⟩
  have hreader : readerFor? c = some .word := by rw [readerFor?, if_pos hc]
  rw [next, hreader]
  exact word_append hchars hrest place

theorem next_number {cs rest : List Char} (hcs : IsDecimal cs)
    (hrest : ∀ c ∈ rest.head?, c.isDigit = false ∧ ('.' ∉ cs → c ≠ '.')) (place : Nat) :
    ∃ c ds, cs = c :: ds ∧ Text.isBlank c = false ∧ next place c (ds ++ rest) =
      ⟨.ok ⟨.number, String.ofList cs, place⟩, cs.length⟩ := by
  obtain ⟨⟨c, ds, rfl, hc⟩, hchars, hcount⟩ := hcs
  have hrange := isDigit_range hc
  have hrun : IsRun 1 (c :: ds) rest := by
    refine ⟨hchars, hcount, fun d hd => ⟨(hrest d hd).1, fun hlt => (hrest d hd).2 ?_⟩⟩
    exact List.count_eq_zero.mp (Nat.lt_one_iff.mp hlt)
  refine ⟨c, ds, rfl, Text.not_isBlank (by omega) (by omega), ?_⟩
  have hreader : readerFor? c = some .number := by
    rw [readerFor?, isWordStart_of_isDigit hc, if_neg (by decide), if_pos hc]
  have hread := @numberChars_append (c :: ds) rest true hrun
  rw [next, hreader]
  show number place ((c :: ds) ++ rest) = _
  simp only [number, hread]

theorem next_quotedName {cs : List Char} (hcs : '"' ∉ cs) (rest : List Char) (place : Nat) :
    next place '"' ((cs ++ ['"']) ++ rest) =
      ⟨.ok ⟨.identifier, String.ofList cs, place⟩, cs.length + 2⟩ := by
  have htake : (cs ++ '"' :: rest).takeWhile (· != '"') = cs := by
    refine takeWhile_append_stop (fun c hc => ?_) (by simp)
    have hne : c ≠ '"' := by
      rintro rfl
      exact hcs hc
    simpa using hne
  have hreader : readerFor? '"' = some .quotedName := by decide
  rw [next, hreader, List.append_assoc]
  show quotedName place ('"' :: (cs ++ '"' :: rest)) = _
  simp [quotedName, htake]

theorem next_string {cs value : List Char} (h : Unescapes cs value) (rest : List Char)
    (place : Nat) :
    next place '\'' ((cs ++ ['\'']) ++ rest) =
      ⟨.ok ⟨.string, String.ofList value, place⟩, cs.length + 2⟩ := by
  have hreader : readerFor? '\'' = some .string := by decide
  rw [next, hreader, List.append_assoc]
  show string place ('\'' :: (cs ++ '\'' :: rest)) = _
  simp only [string, List.drop_one, List.tail_cons, stringBody_unescapes h]

theorem next_mark {cs : List Char} (h : (Mark.ofChars? cs).isSome = true) (rest : List Char)
    (place : Nat) :
    ∃ c ds, cs = c :: ds ∧ Text.isBlank c = false ∧ next place c (ds ++ rest) =
      ⟨.ok ⟨.punctuation, String.ofList cs, place⟩, cs.length⟩ := by
  obtain ⟨c, rfl, hblank, hreader⟩ : ∃ c, cs = [c] ∧ Text.isBlank c = false ∧
      readerFor? c = some .mark := by
    have hmem := mem_of_mark h
    simp only [List.mem_cons, List.not_mem_nil, or_false] at hmem
    rcases hmem with h | h | h | h | h <;> exact ⟨_, h, by decide, by decide⟩
  refine ⟨c, [], rfl, hblank, ?_⟩
  rw [next, hreader]
  rfl

theorem next_operator {cs rest : List Char} (h : (Sign.ofChars? cs).isSome = true)
    (hrest : cs.length = 1 → ∀ c ∈ rest.head?, Sign.ofChars? (cs ++ [c]) = none) (place : Nat) :
    ∃ c ds, cs = c :: ds ∧ Text.isBlank c = false ∧ next place c (ds ++ rest) =
      ⟨.ok ⟨.operator, String.ofList cs, place⟩, cs.length⟩ := by
  obtain ⟨c, ds, rfl, hblank, hreader⟩ : ∃ c ds, cs = c :: ds ∧ Text.isBlank c = false ∧
      readerFor? c = some .operator := by
    have hmem := mem_of_sign h
    simp only [List.mem_cons, List.not_mem_nil, or_false] at hmem
    rcases hmem with h | h | h | h | h | h | h | h | h | h | h | h <;>
      exact ⟨_, _, h, by decide, by decide⟩
  refine ⟨c, ds, rfl, hblank, ?_⟩
  have hread := operatorChars_append h hrest
  rw [next, hreader]
  show operator place ((c :: ds) ++ rest) = _
  simp only [operator, hread, h, if_true]

end Scanner

open Scanner in
/-- **In front of a span the token is found.**  The first character of the span is no white
space. -/
theorem Token.Spans.next_eq {t : Token} {span rest : List Char}
    (h : t.Spans span rest) (place : Nat) :
    ∃ c cs, span = c :: cs ∧ Text.isBlank c = false ∧
      next place c (cs ++ rest) = ⟨.ok (t.moved place), span.length⟩ := by
  cases h with
  | keyword hword hkey hrest =>
    have hread := next_word hword hrest place
    rwa [wordForm_of_keyword hkey] at hread
  | name hword hname hrest =>
    have hread := next_word hword hrest place
    rwa [wordForm_of_name hname] at hread
  | number hcs hrest => exact next_number hcs hrest place
  | quotedName hcs =>
    refine ⟨'"', _, rfl, by decide, (next_quotedName hcs rest place).trans ?_⟩
    simp [moved]
  | string hcs =>
    refine ⟨'\'', _, rfl, by decide, (next_string hcs rest place).trans ?_⟩
    simp [moved]
  | mark hcs => exact next_mark hcs rest place
  | operator hcs hrest => exact next_operator hcs hrest place

theorem Token.Spans.ne_nil {t : Token} {span rest : List Char} (h : t.Spans span rest) :
    span ≠ [] := by
  obtain ⟨c, cs, rfl, _⟩ := h.next_eq 0
  exact List.cons_ne_nil c cs

/-! ## Layouts -/

namespace Scanner

open Token

/-- **Tokens that stand in a text** from a place on: white space, and the spans of the tokens where
they are said to be.  The end stands behind the last character. -/
inductive Laid : Nat → List Char → List Token → Prop
  | done (place : Nat) : Laid place [] [Token.endOfText place]
  | blank {place : Nat} {c : Char} {cs : List Char} {ts : List Token} : Text.isBlank c = true →
      Laid (place + 1) cs ts → Laid place (c :: cs) ts
  | token {place : Nat} {t : Token} {span rest : List Char} {ts : List Token} :
      t.Spans span rest → t.position = place → Laid (place + span.length) rest ts →
      Laid place (span ++ rest) (t :: ts)

theorem scan_blank {c : Char} (h : Text.isBlank c = true) (place : Nat) (cs : List Char) :
    scan place (c :: cs) = scan (place + 1) cs := by
  rw [scan, if_pos h]

/-- The scan stops where nothing can be read. -/
theorem scan_error {place : Nat} {c : Char} {cs : List Char} {e : LexError}
    (hblank : Text.isBlank c = false) (he : (next place c cs).outcome = .error e) :
    (scan place (c :: cs)).1 = .error e := by
  rw [scan, hblank]
  simp only [Bool.false_eq_true, if_false, he]

/-- The scan goes on behind what has been read. -/
theorem scan_ok {place : Nat} {c : Char} {cs : List Char} {t : Token}
    (hblank : Text.isBlank c = false) (ht : (next place c cs).outcome = .ok t) :
    (scan place (c :: cs)).1 = (scan (place + (next place c cs).width)
      (cs.drop ((next place c cs).width - 1))).1.map (t :: ·) := by
  rw [scan, hblank]
  simp only [Bool.false_eq_true, if_false, ht]

/-- Scanning goes on behind a span. -/
theorem scan_span {t : Token} {span rest : List Char} (h : t.Spans span rest) (place : Nat) :
    (scan place (span ++ rest)).1 =
      (scan (place + span.length) rest).1.map (t.moved place :: ·) := by
  obtain ⟨c, cs, rfl, hblank, hread⟩ := h.next_eq place
  have ht : (next place c (cs ++ rest)).outcome = .ok (t.moved place) := by rw [hread]
  rw [List.cons_append, scan_ok hblank ht, hread, List.length_cons, Nat.add_sub_cancel,
    List.drop_left]

theorem laid_of_scan (place : Nat) (cs : List Char) : ∀ {ts : List Token},
    (scan place cs).1 = .ok ts → Laid place cs ts := by
  fun_induction scan place cs with
  | case1 place =>
    rintro ts ⟨⟩
    exact .done place
  | case2 place c cs hblank ih =>
    intro ts h
    exact .blank hblank (ih h)
  | case3 place c cs hblank reading e =>
    rintro ts ⟨⟩
  | case4 place c cs hblank reading t ht tokens stop hscan =>
    rename_i ih
    intro ts h
    rw [hscan] at ih
    cases tokens with
    | error e => cases h
    | ok tokens =>
      cases h
      obtain ⟨span, rest, heq, hspan, hposition, hwidth⟩ := found_of_next ht
      obtain ⟨d, ds, rfl⟩ := List.exists_cons_of_ne_nil hspan.ne_nil
      rw [List.cons_append] at heq
      obtain ⟨rfl, rfl⟩ := List.cons.inj heq
      have hrest := ih rfl
      rw [hwidth, List.length_cons, Nat.add_sub_cancel, List.drop_left] at hrest
      exact .token hspan hposition hrest

/-- **The scanner finds the tokens that stand in the text**, and no others. -/
theorem scan_ok_iff {place : Nat} {cs : List Char} {ts : List Token} :
    (scan place cs).1 = .ok ts ↔ Laid place cs ts := by
  refine ⟨laid_of_scan place cs, fun h => ?_⟩
  induction h with
  | done place => rw [scan]
  | blank hblank _ ih => rw [scan_blank hblank, ih]
  | token hspan hposition _ ih => rw [scan_span hspan, ih, moved_eq hposition]; rfl

end Scanner

theorem tokenize_ok_iff {text : String} {tokens : List Token} :
    tokenize text = .ok tokens ↔ Scanner.Laid 0 text.toList tokens :=
  Scanner.scan_ok_iff

end QueryPipeline
