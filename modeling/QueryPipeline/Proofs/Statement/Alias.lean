import QueryPipeline.Proofs.Statement.Segment

/-!
# Aliases without `AS`

A name behind an item of a select list is its alias only if the token behind the name is none that
can follow an item (`Statement.endsItem`).  Otherwise the name is left, and there it ends badly: no
clause begins with a name, and a statement does not end with one either.

So it comes down to what follows the items of a select list.  Behind the list there is a clause or
the end of the statement; any other token is refused as one that should have been a semicolon
(`stops_select`).  An alias without `AS` is followed by a token that can stand behind the list, but
is not one of those in front of which a name is left: only the words of a join and `OFFSET` remain.
-/

namespace QueryPipeline

namespace Rule

variable {α β : Type} {x : Rule α} {f : α → Rule β} {a : α} {ts us : List Token} {e : ParseError}

/-! ## Rules that fail -/

/-- From some tokens on, a rule fails. -/
def Stops (r : Rule α) (ts : List Token) (e : ParseError) : Prop :=
  ∀ c : Cursor, c.At ts → ∃ d, r c = .error e d

/-- The first part of a sequence reads something, and leaves the cursor to the second. -/
theorem Reads.run (hx : Reads x ts a us) {c : Cursor} (hc : c.At ts) :
    ∃ d, d.At us ∧ ∀ {β : Type} (f : α → Rule β), (x >>= f) c = f a d := by
  obtain ⟨d, hd, hus⟩ := hx c hc
  refine ⟨d, hus, fun f => ?_⟩
  change EStateM.bind x f c = _
  rw [EStateM.bind, hd]

theorem Stops.bind (hx : Stops x ts e) : Stops (x >>= f) ts e := by
  intro c hc
  obtain ⟨d, hd⟩ := hx c hc
  refine ⟨d, ?_⟩
  change EStateM.bind x f c = _
  rw [EStateM.bind, hd]

theorem Reads.stops (hx : Reads x ts a us) (hf : Stops (f a) us e) : Stops (x >>= f) ts e := by
  intro c hc
  obtain ⟨d, hd, hrun⟩ := hx.run hc
  rw [hrun]
  exact hf d hd

theorem Stops.budget {f : Nat → Rule β} (h : Stops (f ts.length) ts e) :
    Stops (Rule.budget >>= f) ts e :=
  Reads.stops (fun c hc => ⟨c, reads_budget hc, hc⟩) h

/-- A part that may be missing, in front of a token of another kind. -/
theorem reads_after_other {k : Kind} {r : Rule α} (hts : Phrase.Begins (· ≠ k) ts) :
    Reads (after k r) ts none ts := by
  obtain ⟨t, rest, j, rfl, hj, hne⟩ := hts
  exact Reads.bind (reads_accept_other hj hne rest) (Reads.pure _ _)

end Rule

/-- Every item of a list is a phrase, behind the phrases of the items before it. -/
theorem Phrase.SeparatedBefore.split {α : Type} {k : Kind} {P : Option Kind → Phrase α}
    {next : Option Kind} {us : List Token} {as : List α} (h : SeparatedBefore k P next us as) :
    ∀ {bs cs : List α} {a : α}, as = bs ++ a :: cs →
      ∃ vs ws xs, us = vs ++ (ws ++ xs) ∧ Closed k P vs bs ∧ P (kindBehind xs next) ws a := by
  induction h with
  | @one us a' h =>
    intro bs cs a heq
    cases bs with
    | nil =>
      cases heq
      exact ⟨[], us, [], by simp, .nil, h⟩
    | cons b bs => cases bs <;> cases heq
  | @more us vs t a' as h ht _ ih =>
    intro bs cs a heq
    cases bs with
    | nil =>
      cases heq
      refine ⟨[], us, t :: vs, rfl, .nil, ?_⟩
      rw [kindBehind, ht]
      exact h
    | cons b bs =>
      obtain ⟨rfl, hrest⟩ := List.cons.inj heq
      obtain ⟨vs, ws, xs, rfl, hvs, hws⟩ := ih hrest
      exact ⟨us ++ t :: vs, ws, xs, by simp, .cons h ht hvs, hws⟩

theorem Phrase.Closed.length_le {α : Type} {k : Kind} {P : Option Kind → Phrase α}
    {us : List Token} {as : List α} (h : Closed k P us as) : as.length ≤ us.length := by
  induction h with
  | nil => exact Nat.le_refl 0
  | cons _ _ _ ih =>
    rw [List.length_append, List.length_cons, List.length_cons]
    omega

/-! ## Behind a select list -/

namespace Statement

open Rule Grammar

/-- The kinds that neither go on with a select list nor stand behind it. -/
def Strays (k : Kind) : Prop :=
  k.clauseRank = 0 ∧ k ≠ .mark .comma

variable {t : Token} {ds is us ts : List Token} {distinct : Bool} {items : List Expr} {e : Expr}

/-- The items with a comma behind them, and a last one. -/
theorem reads_selectList_closed (his : Phrase.Closed (.mark .comma) ItemPhrase is items)
    (hitem : Reads selectItem (us ++ ts) e ts) (hts : Phrase.Begins (· ≠ .mark .comma) ts) :
    Reads selectList (is ++ (us ++ ts)) (items ++ [e]) ts := by
  refine reads_sepBy (by simp) ?_ his hitem hts
  intro vs b q rest h hq
  exact selectItem_complete ⟨⟨.mark .comma, rfl, .inl rfl⟩, h⟩ hq

/-- No list of items begins with `DISTINCT`. -/
theorem begins_closed (his : Phrase.Closed (.mark .comma) ItemPhrase is items)
    (hus : Phrase.Begins (startsExpression · = true) us) (ts : List Token) :
    Phrase.Begins (· ≠ .keyword .DISTINCT) (is ++ (us ++ ts)) := by
  have hstart : Phrase.Begins (startsExpression · = true) (is ++ (us ++ ts)) := by
    cases his with
    | nil => exact hus.append ts
    | cons h =>
      rw [List.append_assoc]
      exact (begins_item h).append _
  refine hstart.mono ?_
  rintro _ hk rfl
  cases hk

section Head

variable (ht : t.kind? = some (.keyword .SELECT))
  (hds : Phrase.Flag (.keyword .DISTINCT) ds distinct)
  (his : Phrase.Closed (.mark .comma) ItemPhrase is items)
  (hitem : Reads selectItem (us ++ ts) e ts)
  (hus : Phrase.Begins (startsExpression · = true) us)
include ht hds his hitem hus

/-- What is read as a select statement has these items. -/
theorem columns_of_selectStatement (hts : Phrase.Begins (· ≠ .mark .comma) ts) {s : Select}
    {c d : Cursor} (hc : c.At (t :: (ds ++ (is ++ (us ++ ts)))))
    (h : selectStatement c = .ok s d) : s.columns = items ++ [e] := by
  have hbegins := begins_closed his hus ts
  have hlist := reads_selectList_closed his hitem hts
  obtain ⟨c₁, hc₁, hrun₁⟩ :=
    (reads_consume .statement ht (by simp) (by simp [hbegins.ne_nil])).run hc
  obtain ⟨c₂, hc₂, hrun₂⟩ := ((accept_complete (by simp)).reads hds hbegins).run hc₁
  obtain ⟨c₃, hc₃, hrun₃⟩ := hlist.run hc₂
  rw [selectStatement, need, hrun₁, hrun₂, hrun₃] at h
  obtain ⟨_, _, _, h⟩ := bind_ok h
  obtain ⟨_, _, _, h⟩ := bind_ok h
  obtain ⟨_, _, _, h⟩ := bind_ok h
  obtain ⟨_, _, _, h⟩ := bind_ok h
  obtain ⟨_, _, _, h⟩ := bind_ok h
  obtain ⟨_, _, _, h⟩ := bind_ok h
  obtain ⟨_, _, _, h⟩ := bind_ok h
  obtain ⟨_, _, _, h⟩ := bind_ok h
  obtain ⟨_, _, _, h⟩ := bind_ok h
  obtain ⟨rfl, _⟩ := pure_ok h
  rfl

/-- In front of a token that strays, a select statement has no clauses. -/
theorem reads_selectStatement_bare (hts : Phrase.Begins Strays ts) :
    ∃ s, Reads selectStatement (t :: (ds ++ (is ++ (us ++ ts)))) s ts := by
  have hbegins := begins_closed his hus ts
  have hcomma : Phrase.Begins (· ≠ .mark .comma) ts := hts.mono fun _ hk => hk.2
  have hclause : ∀ k : Kind, k.clauseRank ≠ 0 → Phrase.Begins (· ≠ k) ts := by
    intro k hk
    refine hts.mono ?_
    rintro _ ⟨hrank, _⟩ rfl
    exact hk hrank
  have hjoins : ∀ n, Reads (joins n) ts [] ts := by
    intro n
    cases n with
    | zero => exact Reads.pure _ _
    | succ n =>
      obtain ⟨u, rest, k, rfl, hu, hrank, _⟩ := hts
      apply Reads.bind (reads_look hu rest)
      rw [if_neg fun hjoin => by rw [clauseRank_of_startsJoin hjoin] at hrank; cases hrank]
      exact Reads.pure _ _
  refine ⟨⟨items ++ [e], none, none, [], none, none, none, none, none, distinct⟩, ?_⟩
  apply Reads.bind (reads_consume _ ht (by simp) (by simp [hbegins.ne_nil]))
  apply Reads.bind ((accept_complete (by simp)).reads hds hbegins)
  apply Reads.bind (reads_selectList_closed his hitem hcomma)
  apply Reads.bind (reads_after_other (hclause _ (by decide)))
  refine Reads.budget (Reads.bind (hjoins _) ?_)
  apply Reads.bind (reads_after_other (hclause _ (by decide)))
  apply Reads.bind (reads_after_other (hclause _ (by decide)))
  apply Reads.bind (reads_after_other (hclause _ (by decide)))
  apply Reads.bind (reads_after_other (hclause _ (by decide)))
  apply Reads.bind (reads_after_other (hclause _ (by decide)))
  apply Reads.bind (reads_after_other (hclause _ (by decide)))
  exact Reads.pure _ _

end Head

/-- In front of a token that can follow an item, a name is left. -/
theorem reads_itemAlias_name {t n : Token} {k : Kind} (ht : t.kind? = some .identifier)
    (hn : n.kind? = some k) (hk : endsItem k = true) (rest : List Token) :
    Reads itemAlias (t :: n :: rest) none (t :: n :: rest) := by
  apply Reads.bind (reads_look ht _)
  apply Reads.bind (reads_lookNext hn _)
  rw [if_pos hk]
  exact Reads.pure _ _

/-- What stands behind the items, and does not leave a name in front of it. -/
theorem mem_of_not_endsItem {k : Kind} (hrank : k.clauseRank ≠ 0) (hk : endsItem k = false) :
    k ∈ [Kind.keyword .JOIN, .keyword .LEFT, .keyword .RIGHT, .keyword .INNER, .keyword .OUTER,
      .keyword .OFFSET] := by
  cases k with
  | keyword w =>
    revert hrank hk
    cases w <;> decide
  | mark m =>
    revert hrank hk
    cases m <;> decide
  | eof => cases hk
  | sign | identifier | number | string | unsorted | other => exact absurd rfl hrank

end Statement

namespace Grammar

/-- Tokens up to a place where an item of a select list begins: statements with their semicolons,
the head of a select statement, and items with their commas. -/
inductive ItemPlace : List Statement → List Expr → List Token → Prop
  | mk {ps ds is : List Token} {t : Token} {done : List Statement} {items : List Expr}
      {distinct : Bool} :
      Phrase.Closed (.mark .semicolon) StatementPhrase ps done → t.kind? = some (.keyword .SELECT) →
      Phrase.Flag (.keyword .DISTINCT) ds distinct →
      Phrase.Closed (.mark .comma) ItemPhrase is items →
      ItemPlace done items (ps ++ t :: (ds ++ is))

end Grammar

namespace Script

open Rule Grammar

/-- Statements with their semicolons are read one by one. -/
theorem run_statementsFrom {ps ts : List Token} {done : List Statement}
    (h : Phrase.Closed (.mark .semicolon) StatementPhrase ps done) (hts : ts ≠ []) (n : Nat) :
    ∀ c : Cursor, c.At (ps ++ ts) →
      ∃ d, d.At ts ∧ statementsFrom (done.length + n) c = ((done ++ ·) <$> statementsFrom n) d := by
  induction h with
  | nil =>
    intro c hc
    refine ⟨c, hc, ?_⟩
    rw [List.length_nil, Nat.zero_add]
    exact congrFun (id_map (statementsFrom n)).symm c
  | @cons us vs q s done hs hq _ ih =>
    intro c hc
    have hread : Reads statement (us ++ q :: (vs ++ ts)) s (q :: (vs ++ ts)) :=
      statement_complete ⟨⟨.mark .semicolon, rfl, by decide⟩, hs⟩ hq
    have hterminator : Reads terminator (q :: (vs ++ ts)) () (vs ++ ts) :=
      reads_terminator_semicolon hq (by simp [hts])
    obtain ⟨u, rest, j, heq, hj, hrule⟩ := hs.begins.append (q :: (vs ++ ts))
    rw [List.append_assoc, List.cons_append, heq] at hc
    rw [heq] at hread
    obtain ⟨c₁, hc₁, hlook⟩ := (reads_look hj rest).run hc
    obtain ⟨c₂, hc₂, hstatement⟩ := hread.run hc₁
    obtain ⟨c₃, hc₃, hend⟩ := hterminator.run hc₂
    obtain ⟨d, hd, hrest⟩ := ih c₃ hc₃
    refine ⟨d, hd, ?_⟩
    have hnotEnd : j ≠ .eof := by
      rintro rfl
      cases hrule
    rw [List.length_cons, Nat.add_right_comm, statementsFrom, hlook, if_neg hnotEnd, hstatement,
      hend]
    -- the statements behind are read from where the semicolon leaves the cursor
    change EStateM.bind (statementsFrom (done.length + n)) _ c₃ = EStateM.map _ (statementsFrom n) d
    change _ = EStateM.map _ (statementsFrom n) d at hrest
    rw [EStateM.map] at hrest ⊢
    rw [EStateM.bind, hrest]
    cases statementsFrom n d <;> rfl

/-- Up to a select statement, all statements are read, and the bound of the loop is not used up. -/
theorem run_statements {ps ts : List Token} {done : List Statement}
    (h : Phrase.Closed (.mark .semicolon) StatementPhrase ps done) (hts : ts ≠ []) {c : Cursor}
    (hc : c.At (ps ++ ts)) :
    ∃ d n, d.At ts ∧
      statementsFrom (ps ++ ts).length c = ((done ++ ·) <$> statementsFrom (n + 1)) d := by
  have hdone := h.length_le
  have hpos := List.length_pos_iff.mpr hts
  obtain ⟨n, hn⟩ : ∃ n, (ps ++ ts).length = done.length + (n + 1) :=
    ⟨(ps ++ ts).length - done.length - 1, by rw [List.length_append]; omega⟩
  obtain ⟨d, hd, hrun⟩ := run_statementsFrom h hts (n + 1) c hc
  rw [hn]
  exact ⟨d, n, hd, hrun⟩

theorem stops_terminator {t : Token} {k : Kind} (ht : t.kind? = some k) (hk : k.clauseRank = 0)
    (rest : List Token) :
    Stops terminator (t :: rest) (.unexpected .statement t (some (.kind (.mark .semicolon)))) := by
  refine Reads.stops (reads_look ht rest) ?_
  intro c hc
  split
  · cases hk
  · cases hk
  · rw [← hc.current]
    exact ⟨c, rfl⟩

/-- A statement that does not end as it should. -/
theorem stops_statementsFrom {u : Token} {j : Kind} {us vs : List Token} {s : Statement}
    {e : ParseError} (hu : u.kind? = some j) (hj : j ≠ .eof)
    (hread : Reads statement (u :: us) s vs) (hend : Stops terminator vs e) (n : Nat) :
    Stops (statementsFrom (n + 1)) (u :: us) e := by
  refine Reads.stops (reads_look hu us) ?_
  rw [if_neg hj]
  exact Reads.stops hread hend.bind

section Items

variable {done : List Statement} {items : List Expr} {before us ts : List Token} {e : Expr}
  (hplace : ItemPlace done items before) (hus : Phrase.Begins (startsExpression · = true) us)
  (hitem : Reads Statement.selectItem (us ++ ts) e ts)
include hplace hus hitem

/-- **A token that strays behind a select list is refused**, in the place of a semicolon. -/
theorem stops_select {t : Token} {rest : List Token} {k : Kind} (hts : ts = t :: rest)
    (ht : t.kind? = some k) (hk : Statement.Strays k) :
    Stops statements (before ++ (us ++ ts))
      (.unexpected .statement t (some (.kind (.mark .semicolon)))) := by
  subst hts
  obtain ⟨hps, hselect, hds, his⟩ := hplace
  obtain ⟨s, hread⟩ :=
    Statement.reads_selectStatement_bare hselect hds his hitem hus ⟨t, rest, k, rfl, ht, hk⟩
  have hstatement : Reads statement _ (.select s) (t :: rest) :=
    Reads.bind (reads_look hselect _) (hread.map _)
  have hend := stops_terminator ht hk.1 rest
  refine Stops.budget (Stops.bind ?_)
  simp only [List.append_assoc, List.cons_append]
  intro c hc
  obtain ⟨d, n, hd, hrun⟩ := run_statements hps (by simp) hc
  obtain ⟨d', herror⟩ := stops_statementsFrom hselect (by simp) hstatement hend n d hd
  rw [hrun]
  refine ⟨d', ?_⟩
  change EStateM.map _ (statementsFrom (n + 1)) d = _
  rw [EStateM.map, herror]

/-- **A statement that is read has the item as its last one**, if no comma follows. -/
theorem columns_of_statements (hts : Phrase.Begins (· ≠ .mark .comma) ts) {all : List Statement}
    {c d : Cursor} (hc : c.At (before ++ (us ++ ts))) (h : statements c = .ok all d) :
    ∃ s later, all = done ++ .select s :: later ∧ s.columns = items ++ [e] := by
  obtain ⟨hps, hselect, hds, his⟩ := hplace
  simp only [List.append_assoc, List.cons_append] at hc
  obtain ⟨found, c₁, hfound, h⟩ := bind_ok (budget_bind hc h)
  obtain ⟨c₀, n, hc₀, hrun⟩ := run_statements hps (by simp) hc
  rw [hrun] at hfound
  obtain ⟨more, hmore, rfl⟩ := map_ok hfound
  obtain ⟨c₂, hc₂, hlook⟩ := (reads_look hselect _).run hc₀
  rw [statementsFrom, hlook, if_neg (by simp)] at hmore
  obtain ⟨s, c₃, hs, hmore⟩ := bind_ok hmore
  obtain ⟨_, _, _, hmore⟩ := bind_ok hmore
  obtain ⟨later, _, _, hmore⟩ := bind_ok hmore
  obtain ⟨rfl, _⟩ := pure_ok hmore
  obtain ⟨c₄, hc₄, hlook⟩ := (reads_look hselect _).run hc₂
  rw [statement, hlook] at hs
  obtain ⟨q, hq, rfl⟩ := map_ok hs
  have hcolumns := Statement.columns_of_selectStatement hselect hds his hitem hus hts hc₄ hq
  rw [if_neg (by simp)] at h
  obtain ⟨rfl, _⟩ := pure_ok h
  exact ⟨q, later, rfl, hcolumns⟩

end Items

/-! ## Texts -/

section Text

variable {text : String} {tokens : List Token} (htokens : tokenize text = .ok tokens)
include htokens

theorem kind_of_tokenize {t : Token} (ht : t ∈ tokens) : ∃ k, t.kind? = some k := by
  obtain ⟨body, stop, rfl, hlegible⟩ := Scanner.scan_legible 0 text.toList htokens
  obtain ht | ht := List.mem_append.1 ht
  · obtain ⟨k, hk, _⟩ := (hlegible t ht).exists_kind
    exact ⟨k, hk⟩
  · rw [List.mem_singleton.1 ht]
    exact ⟨.eof, rfl⟩

/-- Behind a token that is not the end there is another one. -/
theorem next_of_tokenize {us rest : List Token} {t : Token} (heq : tokens = us ++ t :: rest)
    (ht : t.kind? ≠ some .eof) : ∃ n more k, rest = n :: more ∧ n.kind? = some k := by
  obtain ⟨body, stop, hbody, hstop, _⟩ := tokenize_body htokens
  cases rest with
  | nil =>
    obtain ⟨_, hlast⟩ := List.append_inj' (hbody.symm.trans heq) rfl
    cases hlast
    exact absurd hstop ht
  | cons n more =>
    obtain ⟨k, hk⟩ := kind_of_tokenize htokens (t := n) (by simp [heq])
    exact ⟨n, more, k, rfl, hk⟩

/-- A script is what its tokens are read as, from the first one on. -/
theorem ofTokens_start : ∃ c : Cursor, c.At tokens ∧
    (∀ all, (ofTokens tokens).1 = .ok all → ∃ d, statements c = .ok all d) ∧
    ∀ e d, statements c = .error e d → (ofTokens tokens).1 = .error e := by
  obtain ⟨body, stop, rfl, hstop, _⟩ := tokenize_body htokens
  have hlast : (body ++ [stop]).getLast?.map Token.kind? = some (some .eof) := by simp [hstop]
  obtain ⟨first, more, heq⟩ : ∃ first more, body ++ [stop] = first :: more :=
    List.exists_cons_of_ne_nil (by simp)
  rw [heq] at hlast ⊢
  refine ⟨Cursor.start first more, Cursor.at_start first more, ?_, ?_⟩
  · intro all h
    cases hrun : statements (Cursor.start first more) with
    | ok found d =>
      simp only [ofTokens, hlast, hrun] at h
      cases h
      exact ⟨d, rfl⟩
    | error e d =>
      simp only [ofTokens, hlast, hrun] at h
      cases h
  · intro e d hrun
    simp only [ofTokens, hlast, hrun]

end Text

/-! ## Items and their places -/

/-- A script is a list of statements, with a semicolon behind it or without. -/
theorem separated_of_script {us : List Token} {all : List Statement} (h : ScriptPhrase us all) :
    ∃ vs rest, us = vs ++ rest ∧
      Phrase.SeparatedBefore (.mark .semicolon) StatementPhrase
        (Phrase.kindBehind rest (some .eof)) vs all := by
  induction h with
  | @last us s h => exact ⟨us, [], by simp, .one h⟩
  | @closed us q s h hq =>
    refine ⟨us, [q], rfl, .one ?_⟩
    rw [Phrase.kindBehind, hq]
    exact h
  | @cons us vs q s all h hq _ ih =>
    obtain ⟨vs, rest, rfl, hall⟩ := ih
    exact ⟨us ++ q :: vs, rest, by simp, .more h hq hall⟩

/-- **Every item that is read stands at its place.** -/
theorem place_of_item {text : String} {tokens : List Token} {all : List Statement}
    (htokens : tokenize text = .ok tokens) (h : (ofTokens tokens).1 = .ok all)
    {done later : List Statement} {s : Select} {items more : List Expr} {e : Expr}
    (hall : all = done ++ .select s :: later) (hcolumns : s.columns = items ++ e :: more) :
    ∃ before us rest, tokens = before ++ (us ++ rest) ∧ ItemPlace done items before ∧
      ItemPhrase (Phrase.headKind rest) us e := by
  obtain ⟨body, stop, rfl, hstop, hbody⟩ := tokenize_body htokens
  obtain ⟨script, behind, rfl, hscript⟩ := separated_of_script ((ofTokens_iff hbody hstop).1 h)
  obtain ⟨ps, qs, xs, rfl, hps, hqs⟩ := hscript.split hall
  cases hqs with
  | select hqs =>
    obtain @⟨t, ds, _, cs, _, ht, hds, his, _⟩ := hqs
    obtain ⟨vs, us, ws, rfl, hvs, hus⟩ := his.split hcolumns
    refine ⟨_, us, ws ++ (cs ++ (xs ++ (behind ++ [stop]))), by simp, .mk hps ht hds hvs, ?_⟩
    have hend : Phrase.headKind [stop] = some .eof := hstop
    rw [Phrase.headKind_append, Phrase.headKind_append, Phrase.headKind_append,
      Phrase.headKind_append, hend]
    exact hus

/-! ## Names behind items -/

section Name

variable {text : String} {tokens before us rest : List Token} {t : Token} {done : List Statement}
  {items : List Expr} {e : Expr} (htokens : tokenize text = .ok tokens)
  (heq : tokens = before ++ (us ++ t :: rest)) (hplace : ItemPlace done items before)
  (ht : t.kind? = some .identifier)
include htokens heq hplace ht

/-- **A name that is left behind an item is refused**, in the place of a semicolon. -/
theorem ofTokens_left_name (hitem : ItemPhrase (some .identifier) us e) {k : Kind}
    (hk : Phrase.headKind rest = some k) (hends : Statement.endsItem k = true) :
    (ofTokens tokens).1 = .error (.unexpected .statement t (some (.kind (.mark .semicolon)))) := by
  obtain ⟨c, hc, _, herror⟩ := ofTokens_start htokens
  rw [heq] at hc
  cases rest with
  | nil => cases hk
  | cons n more =>
    have hread := Statement.reads_item hitem ht rfl
      (Statement.reads_itemAlias_name ht hk hends more)
    obtain ⟨d, hstop⟩ :=
      stops_select hplace (Statement.begins_item hitem) hread rfl ht ⟨rfl, nofun⟩ c hc
    exact herror _ d hstop

/-- **A name that is an alias is followed by a join or `OFFSET`**, and its item is the last one. -/
theorem alias_of_ofTokens {all : List Statement} (hall : (ofTokens tokens).1 = .ok all)
    (hus : Disjunction us e) (hbegins : Phrase.Begins (· ≠ .sign .asterisk) us) :
    (∃ k ∈ [Kind.keyword .JOIN, .keyword .LEFT, .keyword .RIGHT, .keyword .INNER, .keyword .OUTER,
      .keyword .OFFSET], Phrase.headKind rest = some k) ∧
    ∃ s later, all = done ++ .select s :: later ∧ s.columns = items ++ [e.aliased t.text] := by
  have hsplit : tokens = (before ++ us) ++ t :: rest := by rw [heq, List.append_assoc]
  obtain ⟨n, more, k, rfl, hn⟩ := next_of_tokenize htokens hsplit (by rw [ht]; decide)
  have hends : Statement.endsItem k = false := by
    rw [Bool.eq_false_iff]
    intro hends
    rw [ofTokens_left_name htokens heq hplace ht (.plain hus hbegins) hn hends] at hall
    cases hall
  have hcomma : k ≠ .mark .comma := by
    rintro rfl
    cases hends
  -- the name belongs to the item, so this is what is read up to the token behind it
  have hstart := hus.begins.append [t]
  have hread : Reads Statement.selectItem ((us ++ [t]) ++ n :: more) (e.aliased t.text)
      (n :: more) := by
    rw [List.append_assoc]
    exact Statement.reads_bareItem hus hbegins ht hn hends
  obtain ⟨c, hc, hok, herror⟩ := ofTokens_start htokens
  have hc : c.At (before ++ ((us ++ [t]) ++ n :: more)) := by simpa [heq] using hc
  have hrank : k.clauseRank ≠ 0 := by
    intro hrank
    obtain ⟨d, hstop⟩ := stops_select hplace hstart hread rfl hn ⟨hrank, hcomma⟩ c hc
    rw [herror _ d hstop] at hall
    cases hall
  obtain ⟨d, hrun⟩ := hok all hall
  exact ⟨⟨k, Statement.mem_of_not_endsItem hrank hends, hn⟩,
    columns_of_statements hplace hstart hread ⟨n, more, k, rfl, hn, hcomma⟩ hc hrun⟩

end Name

/-- **Where an alias without `AS` can stand.**  If a text is read, each item of each select list
stands at its place in the tokens.  If the tokens at such a place are an expression and a name, then
the name has become the alias of the item, which is the last one of its list, and behind the name
there is a join or `OFFSET`.

A name behind a complete item and in front of a token that can follow an item is refused, in the
place of a semicolon, whatever else is in the text. -/
theorem ofTokens_bare_alias {text : String} {tokens : List Token}
    (htokens : tokenize text = .ok tokens) :
    (∀ all, (ofTokens tokens).1 = .ok all →
      (∀ done s later items e more, all = done ++ .select s :: later →
        s.columns = items ++ e :: more →
        ∃ before us rest, tokens = before ++ (us ++ rest) ∧ ItemPlace done items before ∧
          ItemPhrase (Phrase.headKind rest) us e) ∧
      ∀ done items before us e t rest, tokens = before ++ (us ++ t :: rest) →
        ItemPlace done items before → Disjunction us e → Phrase.Begins (· ≠ .sign .asterisk) us →
        t.kind? = some .identifier →
        (∃ k ∈ [Kind.keyword .JOIN, .keyword .LEFT, .keyword .RIGHT, .keyword .INNER,
          .keyword .OUTER, .keyword .OFFSET], Phrase.headKind rest = some k) ∧
        ∃ s later, all = done ++ .select s :: later ∧ s.columns = items ++ [e.aliased t.text]) ∧
    ∀ done items before us e t rest, tokens = before ++ (us ++ t :: rest) →
      ItemPlace done items before → ItemPhrase (some .identifier) us e →
      t.kind? = some .identifier →
      (∃ k ∈ [Kind.eof, .mark .comma, .keyword .FROM, .keyword .WHERE, .keyword .GROUP,
        .keyword .HAVING, .keyword .ORDER, .keyword .LIMIT, .mark .semicolon],
        Phrase.headKind rest = some k) →
      (ofTokens tokens).1 =
        .error (.unexpected .statement t (some (.kind (.mark .semicolon)))) := by
  refine ⟨fun all hall => ⟨?_, ?_⟩, ?_⟩
  · intro done s later items e more hdone hcolumns
    exact place_of_item htokens hall hdone hcolumns
  · intro done items before us e t rest heq hplace hus hbegins ht
    exact alias_of_ofTokens htokens heq hplace ht hall hus hbegins
  · intro done items before us e t rest heq hplace hitem ht hnext
    obtain ⟨k, hk, hnext⟩ := hnext
    have hends : Statement.endsItem k = true := List.all_eq_true.1 (by decide) k hk
    exact ofTokens_left_name htokens heq hplace ht hitem hnext hends

/-- In front of a join the name is the alias of the item; in front of `FROM` it is refused. -/
theorem ofTokens_bare_alias_join :
    (∃ tokens s, tokenize "SELECT a b JOIN t" = .ok tokens ∧
      (ofTokens tokens).1 = .ok [.select s] ∧ s.columns = [.column ⟨"a", none, some "b"⟩]) ∧
    ∃ tokens, tokenize "SELECT a b FROM t" = .ok tokens ∧
      (ofTokens tokens).1 = .error (.unexpected .statement ⟨.identifier, "b", 9⟩
        (some (.kind (.mark .semicolon)))) := by
  have hplace : ItemPlace [] [] [⟨.keyword, "SELECT", 0⟩] := .mk .nil rfl .absent .nil
  have hitem : Disjunction [⟨.identifier, "a", 7⟩] (.column ⟨"a", none, none⟩) :=
    (Primary.name rfl rfl).disjunction
  have hbegins : Phrase.Begins (· ≠ .sign .asterisk) [⟨.identifier, "a", 7⟩] :=
    ⟨_, _, .identifier, rfl, rfl, by decide⟩
  constructor
  · have htokens : tokenize "SELECT a b JOIN t" = .ok
        [⟨.keyword, "SELECT", 0⟩, ⟨.identifier, "a", 7⟩, ⟨.identifier, "b", 9⟩,
         ⟨.keyword, "JOIN", 11⟩, ⟨.identifier, "t", 16⟩, ⟨.eof, "", 17⟩] := by decide +kernel
    obtain ⟨_, _, _, hall, hcolumns⟩ :=
      ((ofTokens_bare_alias htokens).1 [_] rfl).2 [] [] _ _ _ _ _ rfl hplace hitem hbegins rfl
    cases hall
    exact ⟨_, _, htokens, rfl, hcolumns⟩
  · have htokens : tokenize "SELECT a b FROM t" = .ok
        [⟨.keyword, "SELECT", 0⟩, ⟨.identifier, "a", 7⟩, ⟨.identifier, "b", 9⟩,
         ⟨.keyword, "FROM", 11⟩, ⟨.identifier, "t", 16⟩, ⟨.eof, "", 17⟩] := by decide +kernel
    exact ⟨_, htokens, (ofTokens_bare_alias htokens).2 [] [] _ _ _ _ _ rfl hplace
      (.plain hitem hbegins) rfl ⟨.keyword .FROM, by decide, rfl⟩⟩

end Script
end QueryPipeline
