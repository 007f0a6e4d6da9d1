import QueryPipeline.Proofs.Expr.Sound
import QueryPipeline.Proofs.Statement.Grammar
import QueryPipeline.Script

/-!
# Statements are read by the grammar

Whatever the rules of statements read is a phrase, and a script that is read up to the end is one
too (`ofTokens_sound`).  There is one lemma for each rule, in the order of the rules.  Only items of
a select list look behind themselves; for them, and for what holds them, soundness speaks of the
kind of the next token (`Rule.SoundBefore`).
-/

namespace QueryPipeline.Statement

open Rule Grammar

/-- An expression inside a statement is one from the current token on. -/
theorem expression_sound : Sound expression Disjunction := by
  intro c d ts e hc h
  rw [expression, if_pos hc.1] at h
  cases hrun : Expr.expression c with
  | ok e' c' =>
    rw [hrun] at h
    cases h
    exact Expr.expression_sound hc hrun
  | error error c' =>
    rw [hrun] at h
    cases h

theorem expressions_sound :
    Sound expressions (Phrase.Separated (.mark .comma) Disjunction) :=
  sepBy_sound (by simp) expression_sound

theorem name_sound : Sound name Identifier := by
  intro c d ts n hc h
  obtain ⟨t, rest, c₁, rfl, ht, hc₁, h₁⟩ := consume_bind hc (by simp) h
  obtain ⟨rfl, rfl⟩ := pure_ok h₁
  exact ⟨[t], rest, rfl, hc₁, .mk ht⟩

/-! ## Tables and joins -/

theorem tableAlias_sound : Sound tableAlias TableAlias := by
  intro c d ts o hc h
  obtain ⟨j, s, ts₁, rfl, hs, h₁⟩ := look_bind hc h
  split at h₁
  · obtain ⟨c₁, hc₁, h₂⟩ := advance_bind hc hs (by simp) h₁
    obtain ⟨us, rest, n, c₂, rfl, hc₂, ⟨ht⟩, h₃⟩ := name_sound.bind hc₁ h₂
    obtain ⟨rfl, rfl⟩ := pure_ok h₃
    exact ⟨[_, _], rest, rfl, hc₂, .present (.present hs) ht⟩
  · obtain ⟨c₁, hc₁, h₂⟩ := advance_bind hc hs (by simp) h₁
    obtain ⟨rfl, rfl⟩ := pure_ok h₂
    exact ⟨[_], ts₁, rfl, hc₁, .present .absent hs⟩
  · obtain ⟨rfl, rfl⟩ := pure_ok h₁
    exact ⟨[], s :: ts₁, rfl, hc, .absent⟩

theorem tableRef_sound : Sound tableRef TablePhrase := by
  intro c d ts table hc h
  obtain ⟨us, ts₁, n, c₁, rfl, hc₁, ⟨ht⟩, h₁⟩ := name_sound.bind hc h
  obtain ⟨vs, ts₂, o, c₂, rfl, hc₂, hvs, h₂⟩ := (after_sound (by simp) name_sound).bind hc₁ h₁
  obtain ⟨ws, rest, aliasName, c₃, rfl, hc₃, hws, h₃⟩ := tableAlias_sound.bind hc₂ h₂
  cases hvs with
  | absent =>
    obtain ⟨rfl, rfl⟩ := pure_ok h₃
    exact ⟨_ :: ws, rest, by simp, hc₃, .plain ht hws⟩
  | present hd hvs =>
    obtain ⟨hu⟩ := hvs
    obtain ⟨rfl, rfl⟩ := pure_ok h₃
    exact ⟨_ :: _ :: _ :: ws, rest, by simp, hc₃, .ofSchema ht hd hu hws⟩

theorem joinKind_sound : Sound joinKind JoinWords := by
  intro c d ts kind hc h
  obtain ⟨j, s, ts₁, rfl, hs, h₁⟩ := look_bind hc h
  split at h₁
  · obtain ⟨c₁, hc₁, h₂⟩ := advance_bind hc hs (by simp) h₁
    obtain ⟨us, rest, b, c₂, rfl, hc₂, hus, h₃⟩ := (accept_sound (by simp)).bind hc₁ h₂
    obtain ⟨rfl, rfl⟩ := pure_ok h₃
    exact ⟨_ :: us, rest, rfl, hc₂, .left hs hus⟩
  · obtain ⟨c₁, hc₁, h₂⟩ := advance_bind hc hs (by simp) h₁
    obtain ⟨us, rest, b, c₂, rfl, hc₂, hus, h₃⟩ := (accept_sound (by simp)).bind hc₁ h₂
    obtain ⟨rfl, rfl⟩ := pure_ok h₃
    exact ⟨_ :: us, rest, rfl, hc₂, .right hs hus⟩
  · obtain ⟨c₁, hc₁, h₂⟩ := advance_bind hc hs (by simp) h₁
    obtain ⟨rfl, rfl⟩ := pure_ok h₂
    exact ⟨[_], ts₁, rfl, hc₁, .outer hs⟩
  · obtain ⟨c₁, hc₁, h₂⟩ := advance_bind hc hs (by simp) h₁
    obtain ⟨rfl, rfl⟩ := pure_ok h₂
    exact ⟨[_], ts₁, rfl, hc₁, .inner hs⟩
  · obtain ⟨rfl, rfl⟩ := pure_ok h₁
    exact ⟨[], s :: ts₁, rfl, hc, .plain⟩

theorem joinClause_sound : Sound joinClause JoinPhrase := by
  intro c d ts join hc h
  obtain ⟨us, ts₁, kind, c₁, rfl, hc₁, hus, h₁⟩ := joinKind_sound.bind hc h
  obtain ⟨t, ts₂, c₂, rfl, ht, hc₂, h₂⟩ := consume_bind hc₁ (by simp) h₁
  obtain ⟨vs, ts₃, table, c₃, rfl, hc₃, hvs, h₃⟩ := tableRef_sound.bind hc₂ h₂
  obtain ⟨ws, rest, condition, c₄, rfl, hc₄, hws, h₄⟩ :=
    (after_sound (by simp) expression_sound).bind hc₃ h₃
  obtain ⟨rfl, rfl⟩ := pure_ok h₄
  exact ⟨us ++ t :: (vs ++ ws), rest, by simp, hc₄, .mk hus ht hvs hws⟩

theorem joins_sound : ∀ n, Sound (joins n) (Phrase.Repeated JoinPhrase) := by
  intro n
  induction n with
  | zero =>
    intro c d ts all hc h
    obtain ⟨rfl, rfl⟩ := pure_ok h
    exact ⟨[], ts, rfl, hc, .nil⟩
  | succ n ih =>
    intro c d ts all hc h
    obtain ⟨j, _, _, _, _, h₁⟩ := look_bind hc h
    by_cases hj : startsJoin j = true
    · rw [if_pos hj] at h₁
      obtain ⟨us, ts₁, join, c₁, rfl, hc₁, hus, h₂⟩ := joinClause_sound.bind hc h₁
      obtain ⟨vs, rest, more, c₂, rfl, hc₂, hvs, h₃⟩ := ih.bind hc₁ h₂
      obtain ⟨rfl, rfl⟩ := pure_ok h₃
      exact ⟨us ++ vs, rest, by simp, hc₂, .cons hus hvs⟩
    · rw [if_neg hj] at h₁
      obtain ⟨rfl, rfl⟩ := pure_ok h₁
      exact ⟨[], ts, rfl, hc, .nil⟩

/-! ## SELECT -/

/-- An alias only changes the expression, and the notes. -/
theorem withAlias_ok {e e' : Expr} {o : Option String} {ts : List Token} {c d : Cursor}
    (hc : c.At ts) (h : withAlias e o c = .ok e' d) :
    d.At ts ∧ e' = o.elim e e.aliased := by
  cases o with
  | none =>
    obtain ⟨rfl, rfl⟩ := pure_ok h
    exact ⟨hc, rfl⟩
  | some n =>
    rw [withAlias] at h
    rw [Option.elim, Expr.aliased]
    cases hn : e.withAlias? n with
    | some named =>
      rw [hn] at h
      obtain ⟨rfl, rfl⟩ := pure_ok h
      exact ⟨hc, rfl⟩
    | none =>
      rw [hn] at h
      cases h
      exact ⟨hc, rfl⟩

/-- An alias behind an item that is no asterisk. -/
theorem itemAlias_sound {us : List Token} {e : Expr} (hus : Disjunction us e)
    (hbegins : Phrase.Begins (· ≠ .sign .asterisk) us) :
    SoundBefore itemAlias (fun next vs o => ItemPhrase next (us ++ vs) (o.elim e e.aliased)) := by
  intro c d ts o hc h
  obtain ⟨j, s, ts₁, rfl, hs, h₁⟩ := look_bind hc h
  split at h₁
  · obtain ⟨c₁, hc₁, h₂⟩ := advance_bind hc hs (by simp) h₁
    obtain ⟨vs, rest, n, c₂, rfl, hc₂, ⟨ht⟩, h₃⟩ := name_sound.bind hc₁ h₂
    obtain ⟨rfl, rfl⟩ := pure_ok h₃
    exact ⟨[s, _], rest, rfl, hc₂, .named hus hbegins hs ht⟩
  · obtain ⟨k, c₁, h₂, h₃⟩ := bind_ok h₁
    obtain ⟨rfl, hk⟩ := lookNext_ok hc h₂
    by_cases hend : endsItem k = true
    · rw [if_pos hend] at h₃
      obtain ⟨rfl, rfl⟩ := pure_ok h₃
      exact ⟨[], s :: ts₁, rfl, hc, by simpa using .plain hus hbegins⟩
    · rw [if_neg hend] at h₃
      obtain ⟨c₂, hc₂, h₄⟩ := advance_bind hc hs (by simp) h₃
      obtain ⟨rfl, rfl⟩ := pure_ok h₄
      obtain ⟨t, ts₂, rfl⟩ := hc₂.eq_cons
      have hnext : Phrase.headKind (t :: ts₂) = some k := hk
      exact ⟨[s], t :: ts₂, rfl, hc₂, .bare hus hbegins hs hnext (by simpa using hend)⟩
  · obtain ⟨rfl, rfl⟩ := pure_ok h₁
    exact ⟨[], s :: ts₁, rfl, hc, by simpa using .plain hus hbegins⟩

theorem selectItem_sound : SoundBefore selectItem ItemPhrase := by
  intro c d ts e hc h
  obtain ⟨b, c₁, h₁, h₂⟩ := bind_ok h
  rcases accept_ok hc (by simp) h₁ with
    ⟨rfl, t, rest, rfl, ht, hc₁⟩ | ⟨rfl, rfl, t, ts₁, j, rfl, hj, hne⟩
  · obtain ⟨rfl, rfl⟩ := pure_ok h₂
    exact ⟨[t], rest, rfl, hc₁, .asterisk ht⟩
  · obtain ⟨us, ts₂, inner, c₂, heq, hc₂, hus, h₃⟩ := expression_sound.bind hc h₂
    have hbegins : Phrase.Begins (· ≠ .sign .asterisk) us := by
      obtain ⟨u, vs, k, rfl, hk, _⟩ := hus.begins
      cases heq
      obtain rfl : j = k := Option.some.inj (hj.symm.trans hk)
      exact ⟨t, vs, j, rfl, hj, hne⟩
    obtain ⟨vs, rest, o, c₃, rfl, hc₃, hvs, h₄⟩ := (itemAlias_sound hus hbegins).bind hc₂ h₃
    obtain ⟨hd, rfl⟩ := withAlias_ok hc₃ h₄
    exact ⟨us ++ vs, rest, by rw [heq, List.append_assoc], hd, hvs⟩

theorem sortKey_sound : Sound sortKey SortPhrase := by
  intro c d ts key hc h
  obtain ⟨us, ts₁, e, c₁, rfl, hc₁, hus, h₁⟩ := expression_sound.bind hc h
  obtain ⟨j, s, ts₂, rfl, hs, h₂⟩ := look_bind hc₁ h₁
  split at h₂
  · obtain ⟨c₂, hc₂, h₃⟩ := advance_bind hc₁ hs (by simp) h₂
    obtain ⟨rfl, rfl⟩ := pure_ok h₃
    exact ⟨us ++ [s], ts₂, by simp, hc₂, .mk hus (.ascending hs)⟩
  · obtain ⟨c₂, hc₂, h₃⟩ := advance_bind hc₁ hs (by simp) h₂
    obtain ⟨rfl, rfl⟩ := pure_ok h₃
    exact ⟨us ++ [s], ts₂, by simp, hc₂, .mk hus (.descending hs)⟩
  · obtain ⟨rfl, rfl⟩ := pure_ok h₂
    exact ⟨us ++ [], s :: ts₂, by simp, hc₁, .mk hus .absent⟩

theorem rowCount_sound : Sound rowCount RowCount := by
  intro c d ts n hc h
  obtain ⟨j, s, ts₁, rfl, hs, h₁⟩ := look_bind hc (get_ok h)
  rw [hc.current] at h₁
  by_cases hj : j = .number ∧ '.' ∉ s.text.toList
  · rw [if_pos hj] at h₁
    obtain ⟨rfl, hpoint⟩ := hj
    obtain ⟨c₁, hc₁, h₂⟩ := advance_bind hc hs (by simp) h₁
    cases hread : Integer.read s.text with
    | ok m =>
      rw [hread] at h₂
      obtain ⟨rfl, rfl⟩ := pure_ok h₂
      exact ⟨[s], ts₁, rfl, hc₁, .mk hs hpoint hread⟩
    | error error =>
      rw [hread] at h₂
      cases h₂
  · rw [if_neg hj] at h₁
    cases h₁

theorem selectStatement_sound : SoundBefore selectStatement SelectPhrase := by
  intro c d ts s hc h
  obtain ⟨t, ts₁, c₁, rfl, ht, hc₁, h₁⟩ := consume_bind hc (by simp) h
  obtain ⟨ds, ts₂, distinct, c₂, rfl, hc₂, hds, h₂⟩ := (accept_sound (by simp)).bind hc₁ h₁
  obtain ⟨is, ts₃, columns, c₃, rfl, hc₃, his, h₃⟩ :=
    (sepBy_soundBefore (by simp) selectItem_sound).bind hc₂ h₂
  obtain ⟨fs, ts₄, source, c₄, rfl, hc₄, hfs, h₄⟩ :=
    (after_sound (by simp) tableRef_sound).bind hc₃ h₃
  obtain ⟨js, ts₅, joins, c₅, rfl, hc₅, hjs, h₅⟩ := (joins_sound _).bind hc₄ (budget_bind hc₄ h₄)
  obtain ⟨ws, ts₆, condition, c₆, rfl, hc₆, hws, h₆⟩ :=
    (after_sound (by simp) expression_sound).bind hc₅ h₅
  obtain ⟨gs, ts₇, grouping, c₇, rfl, hc₇, hgs, h₇⟩ :=
    (after_sound (by simp) (behind_sound (by simp) expressions_sound)).bind hc₆ h₆
  obtain ⟨hs, ts₈, having, c₈, rfl, hc₈, hhs, h₈⟩ :=
    (after_sound (by simp) expression_sound).bind hc₇ h₇
  obtain ⟨os, ts₉, sortKeys, c₉, rfl, hc₉, hos, h₉⟩ :=
    (after_sound (by simp) (behind_sound (by simp) (sepBy_sound (by simp) sortKey_sound))).bind
      hc₈ h₈
  obtain ⟨ls, ts₁₀, limit, c₁₀, rfl, hc₁₀, hls, h₁₀⟩ :=
    (after_sound (by simp) rowCount_sound).bind hc₉ h₉
  obtain ⟨ps, rest, offset, c₁₁, rfl, hc₁₁, hps, h₁₁⟩ :=
    (after_sound (by simp) rowCount_sound).bind hc₁₀ h₁₀
  obtain ⟨rfl, rfl⟩ := pure_ok h₁₁
  simp only [← List.append_assoc] at his
  rw [Phrase.headKind_append] at his
  refine ⟨t :: (ds ++ (is ++ (fs ++ (js ++ (ws ++ (gs ++ (hs ++ (os ++ (ls ++ ps))))))))), rest,
    by simp, hc₁₁, .mk ht hds ?_ (.mk hfs hjs hws hgs hhs hos hls hps)⟩
  simpa using his

/-! ## The other statements -/

theorem columnNames_sound : Sound columnNames ColumnNames := by
  intro c d ts names hc h
  obtain ⟨b, c₁, h₁, h₂⟩ := bind_ok h
  rcases accept_ok hc (by simp) h₁ with ⟨rfl, l, ts₁, rfl, hl, hc₁⟩ | ⟨rfl, rfl, _⟩
  · obtain ⟨us, ts₂, found, c₂, rfl, hc₂, hus, h₃⟩ :=
      (sepBy_sound (by simp) name_sound).bind hc₁ h₂
    obtain ⟨r, rest, c₃, rfl, hr, hc₃, h₄⟩ := consume_bind hc₂ (by simp) h₃
    obtain ⟨rfl, rfl⟩ := pure_ok h₄
    exact ⟨l :: (us ++ [r]), rest, by simp, hc₃, .present hl hus hr⟩
  · obtain ⟨rfl, rfl⟩ := pure_ok h₂
    exact ⟨[], ts, rfl, hc, .absent⟩

theorem row_sound : Sound row Values := by
  intro c d ts es hc h
  obtain ⟨l, ts₁, c₁, rfl, hl, hc₁, h₁⟩ := consume_bind hc (by simp) h
  obtain ⟨us, ts₂, values, c₂, rfl, hc₂, hus, h₂⟩ := expressions_sound.bind hc₁ h₁
  obtain ⟨r, rest, c₃, rfl, hr, hc₃, h₃⟩ := consume_bind hc₂ (by simp) h₂
  obtain ⟨rfl, rfl⟩ := pure_ok h₃
  exact ⟨l :: (us ++ [r]), rest, by simp, hc₃, .mk hl hus hr⟩

theorem insertStatement_sound : Sound insertStatement InsertPhrase := by
  intro c d ts s hc h
  obtain ⟨i, ts₁, c₁, rfl, hi, hc₁, h₁⟩ := consume_bind hc (by simp) h
  obtain ⟨o, ts₂, c₂, rfl, ho, hc₂, h₂⟩ := consume_bind hc₁ (by simp) h₁
  obtain ⟨us, ts₃, table, c₃, rfl, hc₃, hus, h₃⟩ := tableRef_sound.bind hc₂ h₂
  obtain ⟨cs, ts₄, columns, c₄, rfl, hc₄, hcs, h₄⟩ := columnNames_sound.bind hc₃ h₃
  obtain ⟨v, ts₅, c₅, rfl, hv, hc₅, h₅⟩ := consume_bind hc₄ (by simp) h₄
  obtain ⟨rs, rest, rows, c₆, rfl, hc₆, hrs, h₆⟩ := (sepBy_sound (by simp) row_sound).bind hc₅ h₅
  obtain ⟨rfl, rfl⟩ := pure_ok h₆
  exact ⟨i :: o :: (us ++ (cs ++ v :: rs)), rest, by simp, hc₆, .mk hi ho hus hcs hv hrs⟩

theorem assignment_sound : Sound assignment AssignmentPhrase := by
  intro c d ts a hc h
  obtain ⟨us, ts₁, n, c₁, rfl, hc₁, ⟨hn⟩, h₁⟩ := name_sound.bind hc h
  obtain ⟨q, ts₂, c₂, rfl, hq, hc₂, h₂⟩ := consume_bind hc₁ (by simp) h₁
  obtain ⟨vs, rest, e, c₃, rfl, hc₃, hvs, h₃⟩ := expression_sound.bind hc₂ h₂
  obtain ⟨rfl, rfl⟩ := pure_ok h₃
  exact ⟨_ :: q :: vs, rest, by simp, hc₃, .mk hn hq hvs⟩

theorem updateStatement_sound : Sound updateStatement UpdatePhrase := by
  intro c d ts s hc h
  obtain ⟨u, ts₁, c₁, rfl, hu, hc₁, h₁⟩ := consume_bind hc (by simp) h
  obtain ⟨us, ts₂, table, c₂, rfl, hc₂, hus, h₂⟩ := tableRef_sound.bind hc₁ h₁
  obtain ⟨t, ts₃, c₃, rfl, ht, hc₃, h₃⟩ := consume_bind hc₂ (by simp) h₂
  obtain ⟨as, ts₄, assignments, c₄, rfl, hc₄, has, h₄⟩ :=
    (sepBy_sound (by simp) assignment_sound).bind hc₃ h₃
  obtain ⟨ws, rest, condition, c₅, rfl, hc₅, hws, h₅⟩ :=
    (after_sound (by simp) expression_sound).bind hc₄ h₄
  obtain ⟨rfl, rfl⟩ := pure_ok h₅
  exact ⟨u :: (us ++ t :: (as ++ ws)), rest, by simp, hc₅, .mk hu hus ht has hws⟩

theorem deleteStatement_sound : Sound deleteStatement DeletePhrase := by
  intro c d ts s hc h
  obtain ⟨t, ts₁, c₁, rfl, ht, hc₁, h₁⟩ := consume_bind hc (by simp) h
  obtain ⟨f, ts₂, c₂, rfl, hf, hc₂, h₂⟩ := consume_bind hc₁ (by simp) h₁
  obtain ⟨us, ts₃, table, c₃, rfl, hc₃, hus, h₃⟩ := tableRef_sound.bind hc₂ h₂
  obtain ⟨ws, rest, condition, c₄, rfl, hc₄, hws, h₄⟩ :=
    (after_sound (by simp) expression_sound).bind hc₃ h₃
  obtain ⟨rfl, rfl⟩ := pure_ok h₄
  exact ⟨t :: f :: (us ++ ws), rest, by simp, hc₄, .mk ht hf hus hws⟩

/-- The rule for a word reads a statement of its kind. -/
theorem ruleFor?_sound {k : Kind} {rule : Rule Statement} (h : ruleFor? k = some rule) :
    SoundBefore rule StatementPhrase := by
  intro c d ts s hc hrun
  unfold ruleFor? at h
  split at h
  · cases h
    obtain ⟨a, ha, rfl⟩ := map_ok hrun
    obtain ⟨us, rest, rfl, hd, hus⟩ := selectStatement_sound hc ha
    exact ⟨us, rest, rfl, hd, .select hus⟩
  · cases h
    obtain ⟨a, ha, rfl⟩ := map_ok hrun
    obtain ⟨us, rest, rfl, hd, hus⟩ := insertStatement_sound hc ha
    exact ⟨us, rest, rfl, hd, .insert hus⟩
  · cases h
    obtain ⟨a, ha, rfl⟩ := map_ok hrun
    obtain ⟨us, rest, rfl, hd, hus⟩ := updateStatement_sound hc ha
    exact ⟨us, rest, rfl, hd, .update hus⟩
  · cases h
    obtain ⟨a, ha, rfl⟩ := map_ok hrun
    obtain ⟨us, rest, rfl, hd, hus⟩ := deleteStatement_sound hc ha
    exact ⟨us, rest, rfl, hd, .delete hus⟩
  · cases h

end QueryPipeline.Statement

namespace QueryPipeline.Script

open Rule Grammar

/-! ## Scripts -/

theorem statement_sound : SoundBefore statement StatementPhrase := by
  intro c d ts s hc h
  obtain ⟨k, _, _, _, _, h₁⟩ := look_bind hc h
  cases hrule : Statement.ruleFor? k with
  | none =>
    rw [hrule] at h₁
    cases h₁
  | some rule =>
    rw [hrule] at h₁
    exact Statement.ruleFor?_sound hrule hc h₁

/-- A statement ends at a semicolon, which is taken, or at the end. -/
theorem terminator_ok {ts : List Token} {c d : Cursor} (hc : c.At ts)
    (h : terminator c = .ok () d) :
    (∃ t us, ts = t :: us ∧ t.kind? = some (.mark .semicolon) ∧ d.At us) ∨
      (Phrase.headKind ts = some .eof ∧ d = c) := by
  obtain ⟨k, t, us, rfl, hk, h₁⟩ := look_bind hc h
  split at h₁
  · exact Or.inl ⟨t, us, rfl, hk, step_ok hc h₁⟩
  · obtain ⟨_, rfl⟩ := pure_ok h₁
    exact Or.inr ⟨hk, rfl⟩
  · cases h₁

/-- Statements up to the end are nothing, or a script.  A statement takes one token at least, so a
bound that reaches as far as there are tokens is never used up. -/
theorem statementsFrom_sound : ∀ (n : Nat) {c d : Cursor} {ts : List Token} {all : List Statement},
    c.At ts → ts.length ≤ n → statementsFrom n c = .ok all d →
      (all = [] ∧ Phrase.headKind ts = some .eof) ∨
        ∃ us rest, ts = us ++ rest ∧ Phrase.headKind rest = some .eof ∧ ScriptPhrase us all := by
  intro n
  induction n with
  | zero =>
    intro c d ts all hc hn _
    exact absurd (List.eq_nil_of_length_eq_zero (Nat.le_zero.mp hn)) hc.ne_nil
  | succ n ih =>
    intro c d ts all hc hn h
    obtain ⟨k, t, ts₁, rfl, hk, h₁⟩ := look_bind hc h
    by_cases heof : k = .eof
    · rw [if_pos heof] at h₁
      obtain ⟨rfl, rfl⟩ := pure_ok h₁
      exact Or.inl ⟨rfl, by rw [← heof]; exact hk⟩
    · rw [if_neg heof] at h₁
      obtain ⟨us, ts₂, s, c₁, heq, hc₁, hs, h₂⟩ := statement_sound.bind hc h₁
      obtain ⟨_, c₂, h₃, h₄⟩ := bind_ok h₂
      obtain ⟨more, c₃, h₅, h₆⟩ := bind_ok h₄
      obtain ⟨rfl, rfl⟩ := pure_ok h₆
      have hpos := List.length_pos_iff.mpr hs.begins.ne_nil
      rw [heq, List.length_append] at hn
      right
      rcases terminator_ok hc₁ h₃ with ⟨q, ts₃, rfl, hq, hc₂⟩ | ⟨hend, rfl⟩
      · rw [List.length_cons] at hn
        have hbehind : Phrase.headKind (q :: ts₃) = some (.mark .semicolon) := hq
        rw [hbehind] at hs
        rcases ih hc₂ (by omega) h₅ with ⟨rfl, hend⟩ | ⟨vs, rest, rfl, hend, hall⟩
        · exact ⟨us ++ [q], ts₃, by simp [heq], hend, .closed hs hq⟩
        · exact ⟨us ++ q :: vs, rest, by simp [heq], hend, .cons hs hq hall⟩
      · rw [hend] at hs
        rcases ih hc₁ (by omega) h₅ with ⟨rfl, _⟩ | ⟨vs, rest, rfl, _, hall⟩
        · exact ⟨us, ts₂, heq, hend, .last hs⟩
        · obtain ⟨u, ws, j, rfl, hj, hrule⟩ := hall.begins
          cases hj.symm.trans hend
          cases hrule

/-- **What is read as statements is a script**, in front of the end. -/
theorem ofTokens_sound {ts : List Token} {all : List Statement} (h : (ofTokens ts).1 = .ok all) :
    ∃ us rest, ts = us ++ rest ∧ Phrase.headKind rest = some .eof ∧ ScriptPhrase us all := by
  unfold ofTokens at h
  split at h
  · next first rest _ =>
    split at h
    · next found d hrun =>
      cases h
      have hc := Cursor.at_start first rest
      obtain ⟨found, c₁, h₁, h₂⟩ := bind_ok (budget_bind hc hrun)
      cases found with
      | nil => cases h₂
      | cons s more =>
        obtain ⟨rfl, rfl⟩ := pure_ok h₂
        rcases statementsFrom_sound _ hc (Nat.le_refl _) h₁ with ⟨hnil, _⟩ | hscript
        · cases hnil
        · exact hscript
    · cases h
  · cases h
  · cases h

end QueryPipeline.Script
