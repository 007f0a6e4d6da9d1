import QueryPipeline.Proofs.Statement.Lockstep
import QueryPipeline.Proofs.Statement.Sound
import QueryPipeline.Session

/-!
# Where the cursor of a session is

A session can be asked for anything in any order, and a call may fail in the middle of a rule.  If
the last of the tokens is the end, the cursor stays among them all the same: it only moves forward,
over tokens none of which is the end, so it stops at the first end behind its start, and no call
fails for want of tokens.

Two ways to compare runs carry this (`Lockstep`).  `Lockstep.forward` compares a run with itself,
and says where its cursor can be; `Lockstep.sameTokens` compares two runs over the same tokens, of
which one has taken notes before, so that an expression in the middle of a session is read as if its
tokens were all there is.  A third one, `Lockstep.passing`, says what the tokens are like over which
a run has gone.

Main statement: `Session.calls_in_place`.
-/

namespace QueryPipeline

/-! ## Moving towards the end -/

/-- The last token is the end, and no rule has tried to go behind it. -/
def Cursor.Bounded (c : Cursor) : Prop :=
  ∃ ts last, c.At (ts ++ [last]) ∧ last.kind? = some .eof

/-- From one cursor to another over some tokens, none of which is the end. -/
def Cursor.Leads (c d : Cursor) : Prop :=
  ∃ taken, c.current :: c.rest = taken ++ d.current :: d.rest ∧
    ∀ t ∈ taken, t.kind? ≠ some .eof

namespace Cursor

variable {b c d : Cursor}

theorem Leads.refl (c : Cursor) : c.Leads c :=
  ⟨[], rfl, nofun⟩

theorem Leads.trans (h : b.Leads c) (h' : c.Leads d) : b.Leads d := by
  obtain ⟨us, hus, husEnd⟩ := h
  obtain ⟨vs, hvs, hvsEnd⟩ := h'
  refine ⟨us ++ vs, by rw [hus, hvs, List.append_assoc], ?_⟩
  intro t ht
  obtain ht | ht := List.mem_append.1 ht
  · exact husEnd t ht
  · exact hvsEnd t ht

theorem Leads.length (h : c.Leads d) : d.rest.length ≤ c.rest.length := by
  obtain ⟨us, hus, _⟩ := h
  have hlength := congrArg List.length hus
  simp only [List.length_cons, List.length_append] at hlength
  omega

theorem Bounded.overrun (h : c.Bounded) : c.overrun = 0 := by
  obtain ⟨_, _, hat, _⟩ := h
  exact hat.1

/-- In front of the end there is always another token. -/
theorem Bounded.step (h : c.Bounded) (hne : c.current.kind? ≠ some .eof) :
    ∃ u us, c.rest = u :: us ∧ Bounded { c with current := u, rest := us } := by
  obtain ⟨ts, last, hat, heof⟩ := h
  cases ts with
  | nil =>
    rw [← hat.current] at heof
    exact absurd heof hne
  | cons t ts =>
    obtain ⟨u, us, hus⟩ := List.exists_cons_of_ne_nil
      (List.append_ne_nil_of_right_ne_nil ts (List.cons_ne_nil last []))
    exact ⟨u, us, hat.rest.trans hus, ts, last, ⟨hat.1, hus.symm⟩, heof⟩

end Cursor

/-- A run that starts at a bounded cursor goes forward, and does not miss a token. -/
def Lockstep.forward (start : Cursor) : Lockstep where
  Cursors c d := c = d ∧ c.Bounded ∧ start.Leads c
  Tokens := Eq
  Errors e f := e = f ∧ e ≠ .pastEnd
  Asks _ := True
  current := fun ⟨hcd, _⟩ => congrArg Cursor.current hcd
  next := fun ⟨hcd, _⟩ => congrArg Cursor.next hcd
  length := fun ⟨hcd, _⟩ => congrArg (·.rest.length) hcd
  kind := congrArg Token.kind?
  text := fun htu _ _ => congrArg Token.text htu
  step := by
    rintro c _ k ⟨rfl, hc, hleads⟩ hk hne
    have hnotEnd : c.current.kind? ≠ some .eof := by
      rw [hk]
      exact fun h => hne (Option.some.inj h)
    obtain ⟨u, us, hrest, hnext⟩ := hc.step hnotEnd
    rw [Rule.step, hrest]
    refine .ok rfl ⟨rfl, hnext, hleads.trans ⟨[c.current], ?_, ?_⟩⟩
    · rw [hrest]
      rfl
    · exact List.forall_mem_singleton.mpr hnotEnd
  note := by
    rintro notes c _ ⟨rfl, hc, hleads⟩
    exact ⟨rfl, hc, hleads⟩
  overrun := fun ⟨hcd, _⟩ => congrArg Cursor.overrun hcd
  noTokens := fun ⟨_, hc, _⟩ hne => absurd hc.overrun hne
  unknownSymbol := fun htu _ => ⟨congrArg (ParseError.unknownSymbol ·.text) htu, nofun⟩
  unexpected := by
    rintro t _ site expected rfl _
    exact ⟨rfl, nofun⟩
  statementStart := fun htu => ⟨congrArg ParseError.statementStart htu, nofun⟩
  emptyQuery := ⟨rfl, nofun⟩
  integer := fun _ _ _ _ => ⟨rfl, nofun⟩
  asksKind := fun _ => trivial
  asksInteger := trivial

/-- Two runs over the same tokens differ at most in the notes that were there before. -/
def Lockstep.sameTokens : Lockstep where
  Cursors c d := c.current = d.current ∧ c.rest = d.rest ∧ c.overrun = d.overrun
  Tokens := Eq
  Errors := Eq
  Asks _ := True
  current := fun ⟨hcurrent, _⟩ => hcurrent
  next := by
    rintro c d ⟨hcurrent, hrest, _⟩
    rw [Cursor.next, Cursor.next, hrest, hcurrent]
  length := fun ⟨_, hrest, _⟩ => congrArg List.length hrest
  kind := congrArg Token.kind?
  text := fun htu _ _ => congrArg Token.text htu
  step := by
    rintro c d k ⟨hcurrent, hrest, hoverrun⟩ _ _
    rw [Rule.step, Rule.step, ← hrest]
    cases c.rest with
    | nil => exact .error rfl ⟨hcurrent, rfl, congrArg (· + 1) hoverrun⟩
    | cons u us => exact .ok rfl ⟨rfl, rfl, hoverrun⟩
  note := fun _ hcd => hcd
  overrun := fun ⟨_, _, hoverrun⟩ => hoverrun
  noTokens := fun _ _ => rfl
  unknownSymbol := fun htu _ => congrArg (ParseError.unknownSymbol ·.text) htu
  unexpected := by
    rintro t _ site expected rfl _
    rfl
  statementStart := congrArg ParseError.statementStart
  emptyQuery := rfl
  integer := fun _ _ _ _ => rfl
  asksKind := fun _ => trivial
  asksInteger := trivial

/-- From one cursor to another over some tokens, each of which has a kind and is not the end. -/
def Cursor.Passes (c d : Cursor) : Prop :=
  ∃ seen, c.current :: c.rest = seen ++ d.current :: d.rest ∧
    ∀ t ∈ seen, ∃ k, t.kind? = some k ∧ k ≠ .eof

/-- A token that was seen can be passed. -/
theorem Cursor.Passes.step {c d : Cursor} {k : Kind} {u : Token} {us : List Token} (h : c.Passes d)
    (hk : d.current.kind? = some k) (hne : k ≠ .eof) (hrest : d.rest = u :: us) :
    c.Passes { d with current := u, rest := us } := by
  obtain ⟨seen, hseen, hkinds⟩ := h
  refine ⟨seen ++ [d.current], ?_, ?_⟩
  · rw [hseen, hrest, List.append_assoc]
    rfl
  · intro t ht
    obtain ht | ht := List.mem_append.1 ht
    · exact hkinds t ht
    · rw [List.mem_singleton.1 ht]
      exact ⟨k, hk, hne⟩

/-- A rule looks at a token before it takes it. -/
def Lockstep.passing (start : Cursor) : Lockstep where
  Cursors c d := c = d ∧ start.Passes c
  Tokens := Eq
  Errors := Eq
  Asks _ := True
  current := fun h => congrArg Cursor.current h.1
  next := fun h => congrArg Cursor.next h.1
  length := fun h => congrArg (·.rest.length) h.1
  kind := congrArg Token.kind?
  text := fun htu _ _ => congrArg Token.text htu
  step := by
    rintro c _ k ⟨rfl, hpasses⟩ hk hne
    rw [Rule.step]
    cases hrest : c.rest with
    | nil => exact .error rfl ⟨rfl, hrest ▸ hpasses⟩
    | cons u us => exact .ok rfl ⟨rfl, hpasses.step hk hne hrest⟩
  note := by
    rintro notes c _ ⟨rfl, hpasses⟩
    exact ⟨rfl, hpasses⟩
  overrun := fun h => congrArg Cursor.overrun h.1
  noTokens := fun _ _ => rfl
  unknownSymbol := fun htu _ => congrArg (ParseError.unknownSymbol ·.text) htu
  unexpected := by
    rintro t _ site expected rfl _
    rfl
  statementStart := congrArg ParseError.statementStart
  emptyQuery := rfl
  integer := fun _ _ _ _ => rfl
  asksKind := fun _ => trivial
  asksInteger := trivial

theorem Lockstep.Keeps.passes {α : Type} {rule : Rule α} {c d : Cursor} {a : α}
    (h : (Lockstep.passing c).Keeps rule) (hok : rule c = .ok a d) : c.Passes d := by
  have hread := h c c ⟨rfl, [], rfl, nofun⟩
  rw [Lockstep.AgreeAt, hok] at hread
  obtain ⟨_, _, ⟨⟩, _, _, hpasses⟩ := hread.of_ok
  exact hpasses

/-- Where a rule is that has read something. -/
theorem Lockstep.Keeps.goes {α : Type} {rule : Rule α} {c d : Cursor} {a : α}
    (h : (Lockstep.forward c).Keeps rule) (hc : c.Bounded) (hok : rule c = .ok a d) :
    d.Bounded ∧ c.Leads d := by
  have hread := h c c ⟨rfl, hc, .refl c⟩
  rw [Lockstep.AgreeAt, hok] at hread
  obtain ⟨_, _, ⟨⟩, _, _, hgoes⟩ := hread.of_ok
  exact hgoes

/-! ## Requests -/

namespace Request

open Lockstep Rule Grammar

variable {α : Type}

/-- If tokens are compared by equality, a request is answered in the same way. -/
theorem keeps_rule {L : Lockstep} (htokens : ∀ t u, L.Tokens t u → t = u)
    (hasks : ∀ x, L.Asks x) (request : Request α) : L.Keeps request.rule := by
  cases request with
  | isAmong kinds => exact Keeps.look fun k => keeps_pure (kinds.contains k.name)
  | consume site kind =>
    exact (agree_consume site (hasks _)).mono fun t u htu => htokens t u htu.1
  | expression site =>
    cases site with
    | expression => exact Expr.keeps_expression
    | statement => exact Statement.keeps_expression
  | expressions site =>
    cases site with
    | expression => exact Expr.keeps_expressions Expr.keeps_expression
    | statement => exact Statement.keeps_expressions
  | advance => exact agree_advance.mono htokens
  | disjunction => exact Expr.keeps_disjunctionLevel Expr.keeps_expression
  | conjunction => exact Expr.keeps_conjunctionLevel Expr.keeps_expression
  | comparison => exact Expr.keeps_comparisonLevel Expr.keeps_expression
  | sum => exact Expr.keeps_sumLevel Expr.keeps_expression
  | product => exact Expr.keeps_productLevel Expr.keeps_expression
  | unary => exact Expr.keeps_unaryLevel Expr.keeps_expression
  | primary => exact Expr.keeps_primary Expr.keeps_expression
  | valueList => exact Expr.keeps_valueList Expr.keeps_expression
  | callOf name => exact Expr.keeps_callOf Expr.keeps_expression name
  | caseExpression => exact Expr.keeps_caseExpression Expr.keeps_expression
  | advanceBy count => exact (Statement.agree_advanceBy count.toNat).mono htokens
  | tableRef => exact Statement.keeps_tableRef
  | whereClause => exact Statement.keeps_whereClause
  | selectList => exact Statement.keeps_selectList
  | withAlias e aliasName => exact Statement.keeps_withAlias e aliasName
  | joinClause => exact Statement.keeps_joinClause
  | sortKeys => exact Statement.keeps_sortKeys
  | rowCount => exact Statement.keeps_rowCount
  | select => exact Statement.keeps_selectStatement
  | insert => exact Statement.keeps_insertStatement
  | update => exact Statement.keeps_updateStatement
  | delete => exact Statement.keeps_deleteStatement

theorem keeps_forward (start : Cursor) (request : Request α) :
    (Lockstep.forward start).Keeps request.rule :=
  request.keeps_rule (fun _ _ htu => htu) fun _ => trivial

/-- The requests for expressions, tables and statements. -/
def advances : Request α → Bool
  | .expression _ => true
  | .expressions _ => true
  | .tableRef => true
  | .select => true
  | .insert => true
  | .update => true
  | .delete => true
  | _ => false

/-- Expressions, tables and statements have one token at least. -/
theorem sound_ne_nil (request : Request α) (h : request.advances = true) :
    Sound request.rule fun us _ => us ≠ [] := by
  cases request with
  | expression site =>
    cases site with
    | expression => exact Expr.expression_sound.mono fun _ _ hus => hus.begins.ne_nil
    | statement => exact Statement.expression_sound.mono fun _ _ hus => hus.begins.ne_nil
  | expressions site =>
    cases site with
    | expression =>
      exact (Expr.expressions_sound Expr.expression_sound).mono fun _ _ hus =>
        (Expressions.begins hus).ne_nil
    | statement =>
      exact Statement.expressions_sound.mono fun _ _ hus => (Expressions.begins hus).ne_nil
  | tableRef =>
    refine Statement.tableRef_sound.mono fun us table hus => ?_
    cases hus with
    | plain => exact List.cons_ne_nil _ _
    | ofSchema => exact List.cons_ne_nil _ _
  | select =>
    intro c d ts a hc hrun
    obtain ⟨us, rest, hts, hd, hus⟩ := Statement.selectStatement_sound hc hrun
    exact ⟨us, rest, hts, hd, (StatementPhrase.select hus).begins.ne_nil⟩
  | insert =>
    refine Statement.insertStatement_sound.mono fun us a hus => ?_
    have hphrase : StatementPhrase none us (.insert a) := .insert hus
    exact hphrase.begins.ne_nil
  | update =>
    refine Statement.updateStatement_sound.mono fun us a hus => ?_
    have hphrase : StatementPhrase none us (.update a) := .update hus
    exact hphrase.begins.ne_nil
  | delete =>
    refine Statement.deleteStatement_sound.mono fun us a hus => ?_
    have hphrase : StatementPhrase none us (.delete a) := .delete hus
    exact hphrase.begins.ne_nil
  | _ => cases h

end Request

/-! ## Calls -/

namespace Session

variable {α : Type} {tokens : List Token} {start : Nat} {s : Session}

/-- The cursor is among the tokens, at the place that the session gives, and not behind the first
end from its start on. -/
structure InPlace (tokens : List Token) (start : Nat) (s : Session) : Prop where
  tokens_eq : s.tokens = tokens
  nonneg : 0 ≤ s.pos
  lt_length : s.pos < tokens.length
  current : tokens[s.pos.toNat]? = some s.cursor.current
  before_end : ∀ j t, start ≤ j → tokens[j]? = some t → t.kind? = some .eof → s.pos ≤ j

/-- The place moves on by the tokens between the cursors. -/
theorem pos_moveTo {c : Cursor} (hs : s.cursor.overrun = 0) (hc : c.overrun = 0) :
    (s.moveTo c).pos = s.pos + (s.cursor.rest.length - c.rest.length) := by
  simp only [Session.moveTo, hs, hc]
  omega

theorem moveTo_self (s : Session) : s.moveTo s.cursor = s := by
  simp [Session.moveTo]

theorem apply_ok {rule : Rule α} {a : α} {c : Cursor} (h : rule s.cursor = .ok a c) :
    s.apply rule = (.ok a, s.moveTo c) := by
  rw [Session.apply, h]

theorem apply_error {rule : Rule α} {e : ParseError} {c : Cursor}
    (h : rule s.cursor = .error e c) : s.apply rule = (.error e, s.moveTo c) := by
  rw [Session.apply, h]

/-- What carries the invariant over a run: the tokens from the start on are those that were taken,
and those from the cursor on. -/
structure Follows (tokens : List Token) (start : Nat) (s : Session) : Prop where
  tokens_eq : s.tokens = tokens
  bounded : s.cursor.Bounded
  split : ∃ taken, tokens.drop start = taken ++ s.cursor.current :: s.cursor.rest ∧
    s.pos = start + taken.length ∧ ∀ t ∈ taken, t.kind? ≠ some .eof

namespace Follows

theorem drop_pos (h : Follows tokens start s) :
    tokens.drop s.pos.toNat = s.cursor.current :: s.cursor.rest := by
  obtain ⟨taken, htaken, hpos, _⟩ := h.split
  rw [show s.pos.toNat = start + taken.length by omega, ← List.drop_drop, htaken,
    List.drop_left]

theorem inPlace (h : Follows tokens start s) : InPlace tokens start s := by
  obtain ⟨taken, htaken, hpos, hend⟩ := h.split
  have hcurrent : tokens[s.pos.toNat]? = some s.cursor.current := by
    rw [← List.head?_drop, h.drop_pos, List.head?_cons]
  refine ⟨h.tokens_eq, by omega, ?_, hcurrent, ?_⟩
  · have hlt := (List.getElem?_eq_some_iff.1 hcurrent).1
    omega
  · intro j t hj ht hkind
    refine Int.not_lt.1 fun hlt => ?_
    have hget : tokens[j]? = taken[j - start]? := by
      rw [← Nat.add_sub_cancel' hj, ← List.getElem?_drop, htaken,
        List.getElem?_append_left (by omega), Nat.add_sub_cancel_left]
    exact hend t (List.mem_of_getElem? (hget.symm.trans ht)) hkind

theorem moveTo (h : Follows tokens start s) {c : Cursor} (hc : c.Bounded)
    (hleads : s.cursor.Leads c) : Follows tokens start (s.moveTo c) := by
  obtain ⟨taken, htaken, hpos, hend⟩ := h.split
  obtain ⟨more, hmore, hmoreEnd⟩ := hleads
  refine ⟨h.tokens_eq, hc, taken ++ more, ?_, ?_, ?_⟩
  · rw [htaken, hmore, List.append_assoc]
    rfl
  · have hlength := congrArg List.length hmore
    simp only [List.length_cons, List.length_append] at hlength
    rw [pos_moveTo h.bounded.overrun hc.overrun, hpos, List.length_append]
    omega
  · intro t ht
    obtain ht | ht := List.mem_append.1 ht
    · exact hend t ht
    · exact hmoreEnd t ht

/-- A rule that goes forward does so in a session. -/
theorem apply (h : Follows tokens start s) {rule : Rule α}
    (hrule : (Lockstep.forward s.cursor).Keeps rule) :
    Follows tokens start (s.apply rule).2 ∧ s.pos ≤ (s.apply rule).2.pos ∧
      (s.apply rule).1 ≠ .error .pastEnd := by
  have hread := hrule s.cursor s.cursor ⟨rfl, h.bounded, .refl s.cursor⟩
  have hmove : ∀ c, (Lockstep.forward s.cursor).Cursors c c →
      Follows tokens start (s.moveTo c) ∧ s.pos ≤ (s.moveTo c).pos := by
    rintro c ⟨_, hc, hleads⟩
    refine ⟨h.moveTo hc hleads, ?_⟩
    have hlength := hleads.length
    rw [pos_moveTo h.bounded.overrun hc.overrun]
    omega
  rw [Lockstep.AgreeAt] at hread
  cases hresult : rule s.cursor with
  | ok a c =>
    rw [hresult] at hread
    obtain ⟨_, _, ⟨⟩, _, hc⟩ := hread.of_ok
    rw [apply_ok hresult]
    refine ⟨(hmove c hc).1, (hmove c hc).2, ?_⟩
    intro hmissing
    cases hmissing
  | error e c =>
    rw [hresult] at hread
    obtain ⟨_, _, ⟨⟩, he, hc⟩ := hread.of_error
    rw [apply_error hresult]
    refine ⟨(hmove c hc).1, (hmove c hc).2, ?_⟩
    intro hmissing
    exact he.2 (Except.error.inj hmissing)

/-- A rule that reads a token at least moves the cursor. -/
theorem pos_lt_of_ok (h : Follows tokens start s) {rule : Rule α}
    (hsound : Rule.Sound rule fun us _ => us ≠ []) {a : α} (hok : (s.apply rule).1 = .ok a) :
    s.pos < (s.apply rule).2.pos := by
  cases hresult : rule s.cursor with
  | ok b c =>
    rw [apply_ok hresult]
    obtain ⟨ts, last, hat, heof⟩ := h.bounded
    obtain ⟨us, rest, hts, hc, hus⟩ := hsound hat hresult
    have hlength := congrArg List.length (hat.2.trans hts)
    rw [← hc.2] at hlength
    simp only [List.length_cons, List.length_append] at hlength
    have hpositive := List.length_pos_iff.2 hus
    rw [pos_moveTo hat.1 hc.1]
    omega
  | error e c =>
    rw [apply_error hresult] at hok
    cases hok

end Follows

/-! ## What a call does -/

/-- A look ahead, not behind. -/
def Call.LooksAhead : Call α → Prop
  | .peek offset => 0 ≤ offset
  | _ => True

/-- The calls for expressions, tables and statements. -/
def Call.advances : Call α → Bool
  | .request asked => asked.advances
  | .peek _ => false
  | .parse => true

/-- After a call, the cursor is in place; it is not in front of where it was, it has moved if an
expression, a table or a statement was read, and there was a token wherever one was asked for. -/
structure Call.Safe (tokens : List Token) (start : Nat) (s : Session) (call : Call α) :
    Prop where
  inPlace : InPlace tokens start (call.run s).2
  forward : s.pos ≤ (call.run s).2.pos
  noneMissing : call.LooksAhead → (call.run s).1 ≠ .error .pastEnd
  progress : call.advances = true → ∀ a, (call.run s).1 = .ok a → s.pos < (call.run s).2.pos

theorem tokenAt?_isSome {place : Int} (hne : tokens ≠ []) (hplace : 0 ≤ place) :
    ∃ t, tokenAt? tokens place = some t := by
  rw [tokenAt?, if_neg (Int.not_lt.2 hplace)]
  cases tokens[place.toNat]? with
  | some t => exact ⟨t, rfl⟩
  | none => exact ⟨tokens.getLast hne, List.getLast?_eq_some_getLast hne⟩

namespace Follows

/-- Ahead of the cursor there is always a token: behind the last one, it is the last one. -/
theorem ahead_ne (h : Follows tokens start s) {offset : Int} (hoffset : 0 ≤ offset) :
    s.ahead offset ≠ .error .pastEnd := by
  obtain ⟨_, hnonneg, hlt, _⟩ := h.inPlace
  have hne : s.tokens ≠ [] := by
    intro hnil
    rw [← h.tokens_eq, hnil] at hlt
    exact absurd hnonneg (Int.not_le.2 hlt)
  obtain ⟨t, ht⟩ := tokenAt?_isSome hne (Int.add_nonneg hnonneg hoffset)
  rw [ahead, ht]
  exact nofun

theorem run (h : Follows tokens start s) (call : Call α) : Follows tokens start (call.run s).2 := by
  cases call with
  | request asked => exact (h.apply (asked.keeps_forward s.cursor)).1
  | peek offset => exact h
  | parse => exact (h.apply Expr.keeps_expression).1

theorem after (h : Follows tokens start s) (calls : List (Σ α : Type, Call α)) :
    Follows tokens start (s.after calls) := by
  induction calls generalizing s with
  | nil => exact h
  | cons call calls ih => exact ih (h.run call.2)

theorem safe (h : Follows tokens start s) (call : Call α) : call.Safe tokens start s := by
  have hplace := (h.run call).inPlace
  cases call with
  | request asked =>
    obtain ⟨_, hforward, hmissing⟩ := h.apply (asked.keeps_forward s.cursor)
    refine ⟨hplace, hforward, fun _ => hmissing, ?_⟩
    exact fun hadvances a hok => h.pos_lt_of_ok (asked.sound_ne_nil hadvances) hok
  | peek offset => exact ⟨hplace, Int.le_refl _, h.ahead_ne, nofun⟩
  | parse =>
    obtain ⟨_, hforward, hmissing⟩ := h.apply Expr.keeps_expression
    refine ⟨hplace, hforward, fun _ => ?_, fun _ a hok => ?_⟩
    · change Except.map _ (s.apply Expr.expression).1 ≠ _
      cases hanswer : (s.apply Expr.expression).1 with
      | ok e => exact nofun
      | error e =>
        intro heq
        cases heq
        exact hmissing hanswer
    · change Except.map _ (s.apply Expr.expression).1 = _ at hok
      cases hanswer : (s.apply Expr.expression).1 with
      | ok e => exact h.pos_lt_of_ok ((Request.expression .expression).sound_ne_nil rfl) hanswer
      | error e =>
        rw [hanswer] at hok
        cases hok

end Follows

/-! ## Expressions in the middle of a session -/

/-- An expression of a statement takes as many tokens as it does in a session of its own, on the
tokens from the cursor on; where that session fails, this one fails too and stays as it is. -/
def ReadsExpression (tokens : List Token) (s : Session) : Prop :=
  ∃ alone, ofExpression (tokens.drop s.pos.toNat) = .ok alone ∧
    match (Call.run .parse alone).1 with
    | .ok (count, e) => ∃ next : Session,
        (Call.request (.expression .statement)).run s = (.ok e, next) ∧ next.pos = s.pos + count
    | .error error => (Call.request (.expression .statement)).run s = (.error error, s)

theorem run_parse_ok {e : Expr} {c : Cursor} (h : Expr.expression s.cursor = .ok e c) :
    Call.run .parse s = (.ok ((s.moveTo c).pos, e), s.moveTo c) := by
  rw [Call.run, apply_ok h]
  rfl

theorem run_parse_error {error : ParseError} {c : Cursor}
    (h : Expr.expression s.cursor = .error error c) :
    Call.run .parse s = (.error error, s.moveTo c) := by
  rw [Call.run, apply_error h]
  rfl

theorem apply_expression_ok {e : Expr} {c : Cursor} (hs : s.cursor.overrun = 0)
    (h : Expr.expression s.cursor = .ok e c) :
    s.apply Statement.expression = (.ok e, s.moveTo c) := by
  refine apply_ok ?_
  rw [Statement.expression, if_pos hs, h]

theorem apply_expression_error {error : ParseError} {c : Cursor} (hs : s.cursor.overrun = 0)
    (h : Expr.expression s.cursor = .error error c) :
    s.apply Statement.expression = (.error error, s) := by
  have hrule : Statement.expression s.cursor = .error error s.cursor := by
    rw [Statement.expression, if_pos hs, h]
  rw [apply_error hrule, moveTo_self]

/-- A session of its own, on the tokens from the cursor on. -/
theorem Follows.exists_alone (h : Follows tokens start s) :
    ∃ alone, ofExpression (tokens.drop s.pos.toNat) = .ok alone ∧ alone.pos = 0 ∧
      alone.cursor = .start s.cursor.current s.cursor.rest := by
  rw [h.drop_pos]
  exact ⟨_, rfl, rfl, rfl⟩

theorem Follows.readsExpression (h : Follows tokens start s) : ReadsExpression tokens s := by
  obtain ⟨alone, halone, hpos, hcursor⟩ := h.exists_alone
  have hs := h.bounded.overrun
  have hcursors : Lockstep.sameTokens.Cursors s.cursor alone.cursor := by
    rw [hcursor]
    exact ⟨rfl, rfl, hs⟩
  -- the other session has the same outcome, and this one has only gone forward
  have hsame := Expr.keeps_expression s.cursor alone.cursor hcursors
  have hforward := Expr.keeps_expression (L := .forward s.cursor) s.cursor s.cursor
    ⟨rfl, h.bounded, .refl s.cursor⟩
  rw [Lockstep.AgreeAt] at hsame hforward
  refine ⟨alone, halone, ?_⟩
  cases hresult : Expr.expression s.cursor with
  | ok e c =>
    rw [hresult] at hsame hforward
    obtain ⟨_, d, hrun, rfl, _, hrest, hoverrun⟩ := hsame.of_ok
    obtain ⟨_, _, ⟨⟩, _, _, hc, _⟩ := hforward.of_ok
    rw [run_parse_ok hrun]
    refine ⟨s.moveTo c, apply_expression_ok hs hresult, ?_⟩
    rw [pos_moveTo hs hc.overrun, pos_moveTo (hcursors.2.2.symm.trans hs)
      (hoverrun.symm.trans hc.overrun), hpos, ← hcursors.2.1, hrest]
    omega
  | error error c =>
    rw [hresult] at hsame
    obtain ⟨_, _, hrun, rfl, _⟩ := hsame.of_error
    rw [run_parse_error hrun]
    exact apply_expression_error hs hresult

/-- At the start, nothing is taken. -/
theorem follows_start {last first : Token} {rest : List Token}
    (hlast : tokens.getLast? = some last) (heof : last.kind? = some .eof)
    (hdrop : tokens.drop start = first :: rest) :
    Follows tokens start ⟨tokens, start, .start first rest⟩ := by
  refine ⟨rfl, ?_, [], hdrop, by simp, nofun⟩
  obtain ⟨ts, rfl⟩ := List.getLast?_eq_some_iff.1 hlast
  refine ⟨ts.drop start, last, ⟨rfl, ?_⟩, heof⟩
  have hle : start ≤ ts.length := by
    have hlength := congrArg List.length hdrop
    simp at hlength
    omega
  rw [← List.drop_append_of_le_length hle]
  exact hdrop.symm

/-- A session starts in its place. -/
theorem exists_follows {tokens : List Token} {start : Nat} {last : Token}
    (hlast : tokens.getLast? = some last) (heof : last.kind? = some .eof)
    (hstart : start < tokens.length) :
    ∃ s₀, ofTokens tokens start = .ok s₀ ∧ (start = 0 → ofExpression tokens = .ok s₀) ∧
      s₀.pos = start ∧ Follows tokens start s₀ := by
  obtain ⟨first, rest, hdrop⟩ : ∃ first rest, tokens.drop start = first :: rest :=
    List.exists_cons_of_ne_nil (by simpa using hstart)
  refine ⟨⟨tokens, start, .start first rest⟩, ?_, ?_, rfl, follows_start hlast heof hdrop⟩
  · rw [ofTokens, if_neg (by omega), if_neg (by omega), Int.toNat_natCast, hdrop]
  · rintro rfl
    rw [List.drop_zero] at hdrop
    rw [hdrop]
    rfl

/-- **The cursor of a session stays in place**, whatever the session is asked for. -/
theorem calls_in_place (tokens : List Token) (start : Nat) {last : Token}
    (hlast : tokens.getLast? = some last) (heof : last.kind? = some .eof)
    (hstart : start < tokens.length) :
    ∃ s₀, ofTokens tokens start = .ok s₀ ∧ (start = 0 → ofExpression tokens = .ok s₀) ∧
      s₀.pos = start ∧ ∀ calls : List (Σ α : Type, Call α),
        InPlace tokens start (s₀.after calls) ∧
        (∀ (α : Type) (call : Call α), call.Safe tokens start (s₀.after calls)) ∧
        ReadsExpression tokens (s₀.after calls) := by
  obtain ⟨s₀, hs₀, hzero, hpos, hfollows⟩ := exists_follows hlast heof hstart
  refine ⟨s₀, hs₀, hzero, hpos, fun calls => ?_⟩
  have hafter := hfollows.after calls
  exact ⟨hafter.inPlace, fun _ => hafter.safe, hafter.readsExpression⟩

/-- A clause that fails behind its first token, and steps that end at the first of two ends. -/
theorem calls_in_place_two_ends :
    let tokens : List Token :=
      [⟨.identifier, "a", 0⟩, ⟨.keyword, "where", 2⟩, ⟨.punctuation, ")", 8⟩, ⟨.eof, "", 9⟩,
       ⟨.number, "1", 10⟩, ⟨.eof, "", 11⟩]
    let clause : Call (Option Expr) := .request .whereClause
    let steps : Call Token := .request (.advanceBy 9)
    ∃ s₀, ofTokens tokens 1 = .ok s₀ ∧ (clause.run s₀).1.isOk = false ∧
      (s₀.after [⟨_, clause⟩]).pos = 2 ∧ (s₀.after [⟨_, clause⟩, ⟨_, steps⟩]).pos = 3 ∧
      ReadsExpression tokens (s₀.after [⟨_, clause⟩, ⟨_, steps⟩]) ∧
      steps.Safe tokens 1 (s₀.after [⟨_, clause⟩]) := by
  intro tokens clause steps
  obtain ⟨s₀, hs₀, _, _, hcalls⟩ := calls_in_place tokens 1 rfl rfl (by decide)
  cases hs₀
  refine ⟨_, rfl, by decide +kernel, by decide +kernel, by decide +kernel, ?_, ?_⟩
  · exact (hcalls [⟨_, clause⟩, ⟨_, steps⟩]).2.2
  · exact (hcalls [⟨_, clause⟩]).2.1 _ steps

end Session
end QueryPipeline
