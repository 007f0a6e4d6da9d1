import QueryPipeline.Proofs.Canonical.Form
import QueryPipeline.Proofs.Message.Shown
import QueryPipeline.Proofs.Statement.Lockstep
import QueryPipeline.Proofs.Statement.Segment

/-!
# How rules fail

On the tokens of a text, a rule of the grammar fails only at a token that it does not expect, and
the message says so on one line.  The other failures of rules need tokens made by hand, or a number
that is too long.  What excludes them is a property of cursors that every rule keeps: what is left
are legible tokens with short numbers, and the end behind them (`Cursor.Sane`).

What the single steps keep, all rules keep (`Lockstep.contained`).
-/

namespace QueryPipeline

open Text

/-! ## Expected failures -/

/-- The failures that a text can bring about. -/
def ParseError.IsReported : ParseError → Prop
  | .unexpected _ _ _ => True
  | .statementStart _ => True
  | .emptyQuery => True
  | _ => False

theorem Kind.shown_name {k : Kind} (h : k.hasFixedName = true) : Shown k.name := by
  cases k with
  | keyword w => cases w <;> exact shown_of_isAscii (by decide +kernel)
  | sign s => cases s <;> exact shown_of_isAscii (by decide +kernel)
  | mark m => cases m <;> exact shown_of_isAscii (by decide +kernel)
  | identifier | number | string | unsorted | eof => exact shown_of_isAscii (by decide +kernel)
  | other => cases h

structure ParseError.Contained (e : ParseError) : Prop where
  reported : e.IsReported
  shown : Shown e.message

/-! ## Cursors in a text -/

/-- What is left to read is the rest of a text without long numbers. -/
def Cursor.Sane (c : Cursor) : Prop :=
  ∃ ts stop, c.At (ts ++ [Token.endOfText stop]) ∧ (∀ t ∈ ts, t.Legible) ∧ Token.AllShort ts

namespace Cursor.Sane

variable {c : Cursor}

/-- The current token is a legible one with more behind it, or it is the end. -/
theorem cases (h : c.Sane) :
    (∃ k u us, c.current.kind? = some k ∧ k ≠ .eof ∧ c.current.Legible ∧
      (k = .number → c.current.digitCount ≤ Integer.digitLimit) ∧ c.rest = u :: us ∧
      Sane { c with current := u, rest := us }) ∨
    c.current.kind? = some .eof ∧ c.rest = [] := by
  obtain ⟨ts, stop, hat, hlegible, hshort⟩ := h
  cases ts with
  | nil => exact .inr ⟨congrArg Token.kind? hat.current, hat.rest⟩
  | cons t ts =>
    obtain ⟨ht, hts⟩ := List.forall_mem_cons.1 hlegible
    obtain ⟨k, hk, hne⟩ := ht.exists_kind
    obtain ⟨u, us, hrest⟩ := List.exists_cons_of_ne_nil
      (List.append_ne_nil_of_right_ne_nil ts (List.cons_ne_nil (Token.endOfText stop) []))
    rw [List.cons_append] at hat
    refine .inl ⟨k, u, us, ?_, hne, ?_, ?_, hat.rest.trans hrest, ts, stop, ?_, hts, ?_⟩
    · rw [hat.current, hk]
    · rw [hat.current]
      exact ht
    · rintro rfl
      rw [hat.current]
      exact hshort t List.mem_cons_self hk
    · exact ⟨hat.1, hrest.symm⟩
    · exact fun t ht => hshort t (List.mem_cons_of_mem _ ht)

theorem current_kind (h : c.Sane) : ∃ k, c.current.kind? = some k := by
  obtain ⟨k, _, _, hk, _⟩ | ⟨hk, _⟩ := h.cases
  · exact ⟨k, hk⟩
  · exact ⟨_, hk⟩

theorem next_kind (h : c.Sane) : ∃ k, c.next.kind? = some k := by
  obtain ⟨_, u, us, _, _, _, _, hrest, hnext⟩ | ⟨hk, hrest⟩ := h.cases
  · rw [Cursor.next, hrest]
    exact hnext.current_kind
  · rw [Cursor.next, hrest]
    exact ⟨_, hk⟩

end Cursor.Sane

/-- A number of a text that is not too long can be read. -/
theorem Integer.read_of_legible {t : Token} (ht : t.Legible) (hk : t.kind? = some .number)
    (hpoint : '.' ∉ t.text.toList) (hshort : t.digitCount ≤ Integer.digitLimit) :
    ∃ n, Integer.read t.text = .ok n := by
  have hdigits := Integer.areDigits_of_isNumber (ht.clean.number hk) hpoint
  have hlength : t.text.toList.length ≤ Integer.digitLimit := by
    rw [← List.countP_eq_length.mpr hdigits.2]
    exact hshort
  have hread := Integer.read_digits hdigits
  rw [if_neg (Nat.not_lt.mpr hlength)] at hread
  exact ⟨_, hread⟩

/-- **In a text, rules fail in the expected ways only.** -/
def Lockstep.contained : Lockstep where
  Cursors c d := c = d ∧ c.Sane
  Tokens t u := t = u ∧ ∃ k, t.kind? = some k
  Errors e f := e = f ∧ e.Contained
  Asks x := Shown x.name
  current := fun ⟨hcd, hc⟩ => ⟨congrArg Cursor.current hcd, hc.current_kind⟩
  next := fun ⟨hcd, hc⟩ => ⟨congrArg Cursor.next hcd, hc.next_kind⟩
  length := fun ⟨hcd, _⟩ => congrArg (·.rest.length) hcd
  kind := fun ⟨htu, _⟩ => congrArg Token.kind? htu
  text := fun ⟨htu, _⟩ _ _ => congrArg Token.text htu
  step := by
    rintro c _ k ⟨rfl, hc⟩ hk hne
    obtain ⟨_, u, us, _, _, _, _, hrest, hnext⟩ | ⟨heof, _⟩ := hc.cases
    · rw [Rule.step, hrest]
      exact .ok rfl ⟨rfl, hnext⟩
    · exact absurd (Option.some.inj (hk.symm.trans heof)) hne
  note := by
    rintro notes c _ ⟨rfl, ts, stop, hat, hts⟩
    exact ⟨rfl, ts, stop, hat, hts⟩
  overrun := fun ⟨hcd, _⟩ => congrArg Cursor.overrun hcd
  noTokens := fun ⟨_, _, _, hat, _⟩ hne => absurd hat.1 hne
  unknownSymbol := fun ⟨_, _, hk⟩ hnone => nomatch hk.symm.trans hnone
  unexpected := by
    rintro t _ site expected ⟨rfl, _⟩ hasks
    exact ⟨rfl, trivial, ParseError.shown_unexpected site t hasks⟩
  statementStart := by
    rintro t _ ⟨rfl, _⟩
    exact ⟨rfl, trivial, ParseError.shown_statementStart t⟩
  emptyQuery := ⟨rfl, trivial, shown_words (by rfl)⟩
  integer := by
    rintro c _ e ⟨rfl, hc⟩ hk hpoint hread
    obtain ⟨k, _, _, hk', _, hlegible, hshort, _⟩ | ⟨heof, _⟩ := hc.cases
    · obtain ⟨n, hn⟩ := Integer.read_of_legible hlegible hk hpoint
        (hshort (Option.some.inj (hk'.symm.trans hk)))
      cases hn.symm.trans hread
    · cases heof.symm.trans hk
  asksKind := Kind.shown_name
  asksInteger := shown_words (by rfl)

namespace Script

/-- **Tokens of a text are read, or there is a token that is not expected.** -/
theorem contained_ofTokens {text : String} {tokens : List Token} {e : ParseError}
    (htokens : tokenize text = .ok tokens) (hshort : Token.AllShort tokens)
    (h : (ofTokens tokens).1 = .error e) : e.Contained := by
  obtain ⟨legible, stop, rfl, hlegible⟩ := Scanner.scan_legible 0 text.toList htokens
  obtain ⟨first, rest, htoken⟩ := List.exists_cons_of_ne_nil
    (List.append_ne_nil_of_right_ne_nil legible (List.cons_ne_nil (Token.endOfText stop) []))
  have hsane : (Cursor.start first rest).Sane := by
    refine ⟨legible, stop, ?_, hlegible, fun t ht => hshort t (List.mem_append_left _ ht)⟩
    rw [htoken]
    exact Cursor.at_start first rest
  have hlast : (legible ++ [Token.endOfText stop]).getLast?.map Token.kind? = some (some .eof) := by
    rw [List.getLast?_concat]
    rfl
  unfold ofTokens at h
  rw [hlast, htoken] at h
  dsimp only at h
  split at h
  · cases h
  next error c herror =>
    cases h
    have hread := keeps_statements (L := .contained) _ _ ⟨rfl, hsane⟩
    rw [Lockstep.AgreeAt, herror] at hread
    cases hread with
    | error he _ => exact he.2

end Script
end QueryPipeline
