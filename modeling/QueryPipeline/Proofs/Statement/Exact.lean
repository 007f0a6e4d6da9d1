import QueryPipeline.Proofs.Canonical.Form
import QueryPipeline.Proofs.Statement.Segment

/-!
# One statement is exactly what the grammar says

The tokens of a text are read as one statement exactly when they are, without the end and without
one semicolon behind them, a phrase of that statement.  The phrase says which part of the tokens
each field of the statement comes from.  Two kinds of phrases it is made of are tied to the readers
they stand for: expressions (`disjunction_iff_ofTokens`) and bounds of rows (`rowCount_iff`).
-/

namespace QueryPipeline

open Grammar

namespace Expr

/-- The phrases of expressions are the tokens that are read to the last one in front of an end. -/
theorem disjunction_iff_ofTokens {stop : Token} (hstop : stop.kind? = some .eof) {us : List Token}
    {e : Expr} : Disjunction us e ↔ ofTokens (us ++ [stop]) = .ok (us.length, e) := by
  constructor
  · intro h
    exact ofTokens_append h hstop rfl []
  · intro h
    obtain ⟨vs, rest, heq, _, hlength, hvs⟩ := ofTokens_eq_ok h
    obtain ⟨rfl, _⟩ := List.append_inj heq hlength.symm
    exact hvs

end Expr

/-- A number token of a text that is not too long is a bound of rows if it has no point, and the
bound is the number that its digits say. -/
theorem Token.Legible.rowCount_iff {t : Token} (ht : t.Legible)
    (hshort : t.kind? = some .number → t.digitCount ≤ Integer.digitLimit) {n : Int} :
    RowCount [t] n ↔ t.kind? = some .number ∧ '.' ∉ t.text.toList ∧
      n = (Nat.ofDigitChars 10 t.text.toList 0 : Nat) := by
  have hread : t.kind? = some .number → '.' ∉ t.text.toList →
      Integer.read t.text = .ok (Nat.ofDigitChars 10 t.text.toList 0 : Nat) := by
    intro hk hpoint
    have hdigits := Integer.areDigits_of_isNumber (ht.clean.number hk) hpoint
    have hlength : t.text.toList.length ≤ Integer.digitLimit := by
      rw [← List.countP_eq_length.mpr hdigits.2]
      exact hshort hk
    rw [Integer.read_digits hdigits, if_neg (Nat.not_lt.mpr hlength)]
  constructor
  · intro h
    obtain ⟨hk, hpoint, hn⟩ := h
    rw [hread hk hpoint] at hn
    exact ⟨hk, hpoint, (Except.ok.inj hn).symm⟩
  · intro h
    obtain ⟨hk, hpoint, rfl⟩ := h
    exact .mk hk hpoint (hread hk hpoint)

namespace Script

/-- Tokens without one semicolon behind them. -/
def unterminated (tokens : List Token) : List Token :=
  if tokens.getLast?.any isSemicolon = true then tokens.dropLast else tokens

theorem unterminated_concat {q : Token} (hq : isSemicolon q = true) (us : List Token) :
    unterminated (us ++ [q]) = us := by
  simp [unterminated, hq]

theorem unterminated_concat_other {q : Token} (hq : isSemicolon q = false) (us : List Token) :
    unterminated (us ++ [q]) = us ++ [q] := by
  simp [unterminated, hq]

/-- A script of one statement is the statement, with or without a semicolon behind it. -/
theorem script_single_iff {body : List Token} {s : Statement} :
    ScriptPhrase body [s] ↔ StatementPhrase (some .eof) (unterminated body) s := by
  constructor
  · intro h
    cases h with
    | last hs =>
      rcases body.eq_nil_or_concat' with rfl | ⟨us, q, rfl⟩
      · exact absurd rfl hs.begins.ne_nil
      · rw [unterminated_concat_other (not_semicolon_of_statement hs q (by simp))]
        exact hs
    | closed hs hq =>
      rw [unterminated_concat (isSemicolon_iff.mpr hq)]
      exact hs.ahead rfl
    | cons _ _ hrest => cases hrest
  · intro h
    rcases body.eq_nil_or_concat' with rfl | ⟨us, q, rfl⟩
    · exact .last h
    · cases hq : isSemicolon q with
      | true =>
        rw [unterminated_concat hq] at h
        exact .closed (h.ahead rfl) (isSemicolon_iff.mp hq)
      | false =>
        rw [unterminated_concat_other hq] at h
        exact .last h

/-- **A single statement is exactly a phrase of the grammar.**  The tokens of a text without long
numbers are read as the statement `s` exactly when they are a phrase of `s`, the end and one
semicolon in front of it apart.  In the phrase, an expression is what is read as one alone, and a
bound of rows is the number that the digits of its token say. -/
theorem ofTokens_single_exact {text : String} {tokens : List Token}
    (h : tokenize text = .ok tokens) (hshort : Token.AllShort tokens) :
    ∃ body stop, tokens = body ++ [stop] ∧ stop.kind? = some .eof ∧
      (∀ t ∈ body, t.kind? ≠ some .eof) ∧
      (∀ us e, Disjunction us e ↔ Expr.ofTokens (us ++ [stop]) = .ok (us.length, e)) ∧
      (∀ t ∈ body, ∀ n, RowCount [t] n ↔ t.kind? = some .number ∧ '.' ∉ t.text.toList ∧
        n = (Nat.ofDigitChars 10 t.text.toList 0 : Nat)) ∧
      ∀ s, (ofTokens tokens).1 = .ok [s] ↔
        StatementPhrase (some .eof) (unterminated body) s := by
  obtain ⟨body, stop, rfl, hlegible⟩ := Scanner.scan_legible 0 text.toList h
  have hbody : ∀ t ∈ body, t.kind? ≠ some .eof := by
    intro t ht hend
    obtain ⟨k, hk, hne⟩ := (hlegible t ht).exists_kind
    exact hne (Option.some.inj (hk.symm.trans hend))
  refine ⟨body, Token.endOfText stop, rfl, rfl, hbody, ?_, ?_, ?_⟩
  · intro us e
    exact Expr.disjunction_iff_ofTokens rfl
  · intro t ht n
    exact (hlegible t ht).rowCount_iff (hshort t (List.mem_append_left _ ht))
  · intro s
    rw [ofTokens_iff hbody rfl]
    exact script_single_iff

/-- An alias without `AS` in front of a join, a bound with zeros in front, and a semicolon. -/
theorem ofTokens_single_exact_join :
    let text := "SELECT DISTINCT n a OUTER JOIN s.u x ON n LIMIT 007;"
    let tokens : List Token :=
      [⟨.keyword, "SELECT", 0⟩, ⟨.keyword, "DISTINCT", 7⟩, ⟨.identifier, "n", 16⟩,
       ⟨.identifier, "a", 18⟩, ⟨.keyword, "OUTER", 20⟩, ⟨.keyword, "JOIN", 26⟩,
       ⟨.identifier, "s", 31⟩, ⟨.punctuation, ".", 32⟩, ⟨.identifier, "u", 33⟩,
       ⟨.identifier, "x", 35⟩, ⟨.keyword, "ON", 37⟩, ⟨.identifier, "n", 40⟩,
       ⟨.keyword, "LIMIT", 42⟩, ⟨.number, "007", 48⟩, ⟨.punctuation, ";", 51⟩, ⟨.eof, "", 52⟩]
    tokenize text = .ok tokens ∧ Token.AllShort tokens ∧
      StatementPhrase (some .eof) (tokens.take 14)
        (.select ⟨[.column ⟨"n", none, some "a"⟩], none, none,
          [⟨.outer, ⟨"u", some "s", some "x"⟩, some (.column ⟨"n", none, none⟩)⟩], none, none, none,
          some 7, none, true⟩) := by
  intro text tokens
  have htokens : tokenize text = .ok tokens := by decide +kernel
  have hshort : Token.AllShort tokens := by decide +kernel
  obtain ⟨body, stop, heq, _, _, _, _, hexact⟩ := ofTokens_single_exact htokens hshort
  obtain rfl : body = tokens.dropLast := by rw [heq, List.dropLast_concat]
  exact ⟨htokens, hshort, (hexact _).mp rfl⟩

end Script
end QueryPipeline
