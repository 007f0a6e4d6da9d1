import Mathlib.Data.List.Forall2
import QueryPipeline.Proofs.Rule.Blame
import QueryPipeline.Proofs.Statement.Lockstep

/-!
# What of a token reaches a statement

The grammar looks at the kinds of tokens, and takes over the texts of names and literals.  So it
does not matter in which letters a keyword is written, which of its spellings a sign has, or where a
token stands: two lists of tokens that are alike in this sense (`Token.Alike`) are read alike.

The two runs go in lockstep (`Lockstep.alike`).  Their cursors are always at the same index, so if
they fail, they blame the tokens at the same index.
-/

namespace QueryPipeline

/-! ## Alike tokens -/

/-- The kinds are the same, and so are the texts, where the text becomes part of what is read. -/
def Token.Alike (t u : Token) : Prop :=
  t.kind? = u.kind? ∧ (t.kind?.any Kind.carriesText = true → t.text = u.text)

instance (t u : Token) : Decidable (t.Alike u) :=
  inferInstanceAs (Decidable (_ ∧ _))

/-- The tokens stand at the same index of two lists. -/
def Token.Across (ts us : List Token) (t u : Token) : Prop :=
  ∃ i : Nat, ts[i]? = some t ∧ us[i]? = some u

theorem Token.Across.alike {ts us : List Token} {t u : Token} (hall : List.Forall₂ Alike ts us)
    (h : Across ts us t u) : t.Alike u := by
  obtain ⟨i, ht, hu⟩ := h
  obtain ⟨hi, rfl⟩ := List.getElem?_eq_some_iff.1 ht
  obtain ⟨hj, rfl⟩ := List.getElem?_eq_some_iff.1 hu
  exact (List.forall₂_iff_get.1 hall).2 i hi hj

/-- Errors of the same class, which are about the tokens at the same index if they are about any. -/
inductive ParseError.Alike (ts us : List Token) : ParseError → ParseError → Prop
  | unexpected {t u : Token} (site : Site) (expected : Option Expected) :
      Token.Across ts us t u → Alike ts us (.unexpected site t expected) (.unexpected site u expected)
  | statementStart {t u : Token} :
      Token.Across ts us t u → Alike ts us (.statementStart t) (.statementStart u)
  | unknownSymbol {t u : Token} :
      Token.Across ts us t u → Alike ts us (.unknownSymbol t.text) (.unknownSymbol u.text)
  | same {e : ParseError} : e.token? = none → Alike ts us e e

/-! ## Two cursors side by side -/

/-- The cursors are at the same index of two lists, and differ in nothing else. -/
structure Cursor.Beside (ts us : List Token) (c d : Cursor) : Prop where
  place : ∃ i, c.current :: c.rest = ts.drop i ∧ d.current :: d.rest = us.drop i
  overrun : c.overrun = d.overrun
  notes : c.notes = d.notes

namespace Cursor.Beside

variable {ts us : List Token} {c d : Cursor}

theorem current (h : Beside ts us c d) : Token.Across ts us c.current d.current := by
  obtain ⟨i, hc, hd⟩ := h.place
  exact ⟨i, by rw [← List.head?_drop, ← hc, List.head?_cons],
    by rw [← List.head?_drop, ← hd, List.head?_cons]⟩

/-- Both cursors have something behind them, and can be put there, or neither has. -/
theorem rest (hlength : ts.length = us.length) (h : Beside ts us c d) :
    (c.rest = [] ∧ d.rest = []) ∨
      ∃ t ts' u us', c.rest = t :: ts' ∧ d.rest = u :: us' ∧
        Beside ts us { c with current := t, rest := ts' } { d with current := u, rest := us' } := by
  obtain ⟨i, hc, hd⟩ := h.place
  have hts : c.rest = ts.drop (i + 1) := by rw [← List.tail_drop, ← hc, List.tail_cons]
  have hus : d.rest = us.drop (i + 1) := by rw [← List.tail_drop, ← hd, List.tail_cons]
  have hboth : c.rest.length = d.rest.length := by
    rw [hts, hus, List.length_drop, List.length_drop, hlength]
  cases hcrest : c.rest with
  | nil =>
    rw [hcrest] at hboth
    exact .inl ⟨rfl, List.eq_nil_of_length_eq_zero hboth.symm⟩
  | cons t ts' =>
    cases hdrest : d.rest with
    | nil =>
      rw [hcrest, hdrest] at hboth
      cases hboth
    | cons u us' =>
      refine .inr ⟨t, ts', u, us', rfl, rfl, ⟨i + 1, ?_, ?_⟩, h.overrun, h.notes⟩
      · exact hcrest.symm.trans hts
      · exact hdrest.symm.trans hus

end Cursor.Beside

/-- Runs over two lists of alike tokens. -/
def Lockstep.alike {ts us : List Token} (hall : List.Forall₂ Token.Alike ts us) : Lockstep where
  Cursors := Cursor.Beside ts us
  Tokens := Token.Across ts us
  Errors := ParseError.Alike ts us
  Asks _ := True
  current := Cursor.Beside.current
  next := by
    intro c d h
    rw [Cursor.next, Cursor.next]
    obtain ⟨hc, hd⟩ | ⟨t, ts', u, us', hc, hd, hnext⟩ := h.rest hall.length_eq
    · rw [hc, hd]
      exact h.current
    · rw [hc, hd]
      exact hnext.current
  length := by
    intro c d h
    obtain ⟨i, hc, hd⟩ := h.place
    have hboth := congrArg List.length hc
    rw [List.length_drop, hall.length_eq, ← List.length_drop, ← hd] at hboth
    exact Nat.succ.inj hboth
  kind := fun htu => (htu.alike hall).1
  text := by
    intro t u k htu hk hcarries
    exact (htu.alike hall).2 (by rw [hk]; exact hcarries)
  step := by
    intro c d k h _ _
    obtain ⟨hc, hd⟩ | ⟨t, ts', u, us', hc, hd, hnext⟩ := h.rest hall.length_eq
    · have hplace := h.place
      rw [hc, hd] at hplace
      rw [Rule.step, Rule.step, hc, hd]
      exact .error (.same rfl) ⟨hplace, congrArg (· + 1) h.overrun, h.notes⟩
    · rw [Rule.step, Rule.step, hc, hd]
      exact .ok rfl hnext
  note := fun notes h => ⟨h.place, h.overrun, congrArg (· ++ notes) h.notes⟩
  overrun := Cursor.Beside.overrun
  noTokens := fun _ _ => .same rfl
  unknownSymbol := fun htu _ => .unknownSymbol htu
  unexpected := fun site _ htu _ => .unexpected site _ htu
  statementStart := .statementStart
  emptyQuery := .same rfl
  integer := fun _ _ _ _ => .same rfl
  asksKind := fun _ => trivial
  asksInteger := trivial

/-! ## Scripts -/

namespace Script

/-- Both lists end with a token of the same kind. -/
theorem lastKind_alike {ts us : List Token} (hall : List.Forall₂ Token.Alike ts us) :
    ts.getLast?.map Token.kind? = us.getLast?.map Token.kind? := by
  have hkinds : List.Forall₂ Eq (ts.map Token.kind?) (us.map Token.kind?) := by
    rw [List.forall₂_map_left_iff, List.forall₂_map_right_iff]
    exact hall.imp fun _ _ h => h.1
  rw [List.forall₂_eq_eq_eq] at hkinds
  rw [← List.getLast?_map, hkinds, List.getLast?_map]

theorem across_last {t u : Token} {ts us : List Token} (hlength : ts.length = us.length) :
    Token.Across (t :: ts) (u :: us) ((t :: ts).getLastD t) ((u :: us).getLastD u) := by
  refine ⟨ts.length, ?_, ?_⟩
  · rw [List.getLastD_eq_getLast?, List.getLast?_eq_getElem?]
    simp
  · rw [hlength, List.getLastD_eq_getLast?, List.getLast?_eq_getElem?]
    simp

/-- **Alike tokens are read alike.**  If the tokens of two lists are of the same kinds, and names
and literals have the same texts, then both lists are the same statements, or both fail for the same
reason and at the same index. -/
theorem ofTokens_alike {ts us : List Token} (hall : List.Forall₂ Token.Alike ts us) :
    (∃ all notes, ofTokens ts = (.ok all, notes) ∧ ofTokens us = (.ok all, notes)) ∨
      ∃ e f notes, ofTokens ts = (.error e, notes) ∧ ofTokens us = (.error f, notes) ∧
        ParseError.Alike ts us e f := by
  have hlast := lastKind_alike hall
  have hkeeps := keeps_statements (L := .alike hall)
  have hlength := hall.length_eq
  rcases ts with _ | ⟨t, ts⟩
  · obtain rfl := List.eq_nil_of_length_eq_zero hlength.symm
    exact .inr ⟨.unfinished, .unfinished, [], rfl, rfl, .same rfl⟩
  rcases us with _ | ⟨u, us⟩
  · cases hlength
  unfold ofTokens
  rw [hlast]
  cases (u :: us).getLast?.map Token.kind? with
  | none => exact .inr ⟨.unfinished, .unfinished, [], rfl, rfl, .same rfl⟩
  | some lastKind =>
    cases lastKind with
    | none => exact .inr ⟨_, _, [], rfl, rfl, .unknownSymbol (across_last (Nat.succ.inj hlength))⟩
    | some k =>
      cases k with
      | eof =>
        dsimp only
        have hread := hkeeps (Cursor.start t ts) (Cursor.start u us) ⟨⟨0, rfl, rfl⟩, rfl, rfl⟩
        rw [Lockstep.AgreeAt] at hread
        cases hts : statements (Cursor.start t ts) with
        | ok all c =>
          rw [hts] at hread
          obtain ⟨_, d, hus, rfl, hcd⟩ := hread.of_ok
          rw [hus]
          exact .inl ⟨all, c.notes, rfl, by rw [hcd.notes]⟩
        | error e c =>
          rw [hts] at hread
          obtain ⟨f, d, hus, hef, hcd⟩ := hread.of_error
          rw [hus]
          exact .inr ⟨e, f, c.notes, rfl, by rw [hcd.notes], hef⟩
      | _ => exact .inr ⟨.unfinished, .unfinished, [], rfl, rfl, .same rfl⟩

/-- Keywords in other letters, the other sign for a difference, and other places. -/
theorem ofTokens_alike_spellings :
    let ts : List Token :=
      [⟨.keyword, "select", 0⟩, ⟨.keyword, "Max", 7⟩, ⟨.punctuation, "(", 10⟩,
       ⟨.identifier, "a", 11⟩, ⟨.punctuation, ")", 12⟩, ⟨.keyword, "where", 14⟩,
       ⟨.identifier, "a", 20⟩, ⟨.operator, "<>", 22⟩, ⟨.string, "x", 25⟩, ⟨.eof, "", 28⟩]
    let us : List Token :=
      [⟨.keyword, "SELECT", 0⟩, ⟨.keyword, "Max", 8⟩, ⟨.punctuation, "(", 12⟩,
       ⟨.identifier, "a", 14⟩, ⟨.punctuation, ")", 16⟩, ⟨.keyword, "Where", 18⟩,
       ⟨.identifier, "a", 24⟩, ⟨.operator, "!=", 25⟩, ⟨.string, "x", 27⟩, ⟨.eof, "", 31⟩]
    List.Forall₂ Token.Alike ts us ∧
      ∃ all notes, ofTokens ts = (.ok all, notes) ∧ ofTokens us = (.ok all, notes) := by
  intro ts us
  have hall : List.Forall₂ Token.Alike ts us := by decide +kernel
  refine ⟨hall, ?_⟩
  obtain hok | ⟨e, f, notes, hts, _⟩ := ofTokens_alike hall
  · exact hok
  · have hread : (ofTokens ts).1 = .ok
        [.select ⟨[.call "Max" [.column ⟨"a", none, none⟩] false none], none,
          some (.binary (.column ⟨"a", none, none⟩) .ne (.literal (.string "x"))), [], none, none,
          none, none, none, false⟩] := rfl
    rw [hts] at hread
    cases hread

end Script
end QueryPipeline
