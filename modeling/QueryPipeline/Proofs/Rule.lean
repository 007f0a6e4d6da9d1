import QueryPipeline.Cursor

/-!
# What a rule reads

A rule is a function on cursors.  What matters of a cursor is the list of tokens from the current
one on; `Cursor.At` says which list that is.  There are two ways to talk about a rule:

    Rule.Reads r tokens a rest    from `tokens` on, `r` reads `a` and leaves `rest`
    r c = .ok a c'                `r` was run and has read `a`

The first is what one proves of a rule, by running it: `Reads.bind` follows the sequence of its
parts, and there is one lemma for each primitive rule (`reads_look`, `reads_advance`, ...).  The
second is what one has of a rule that succeeded, and the lemmas `look_ok`, `advance_ok`, ... take it
apart.
-/

namespace QueryPipeline

/-- The cursor is at the first of some tokens, and no rule has tried to go behind the last one. -/
def Cursor.At (c : Cursor) (tokens : List Token) : Prop :=
  c.overrun = 0 ∧ c.current :: c.rest = tokens

theorem Cursor.at_start (first : Token) (rest : List Token) :
    (Cursor.start first rest).At (first :: rest) :=
  ⟨rfl, rfl⟩

theorem Cursor.At.ne_nil {c : Cursor} {tokens : List Token} (h : c.At tokens) : tokens ≠ [] := by
  rw [← h.2]
  simp

theorem Cursor.At.eq_cons {c : Cursor} {tokens : List Token} (h : c.At tokens) :
    ∃ t ts, tokens = t :: ts :=
  ⟨c.current, c.rest, h.2.symm⟩

theorem Cursor.At.current {c : Cursor} {t : Token} {ts : List Token} (h : c.At (t :: ts)) :
    c.current = t :=
  (List.cons.inj h.2).1

theorem Cursor.At.rest {c : Cursor} {t : Token} {ts : List Token} (h : c.At (t :: ts)) :
    c.rest = ts :=
  (List.cons.inj h.2).2

theorem Cursor.At.next {c : Cursor} {t u : Token} {ts : List Token} (h : c.At (t :: u :: ts)) :
    c.next = u := by
  rw [Cursor.next, h.rest]
  rfl

namespace Rule

variable {α β : Type}

/-- From some tokens on, a rule reads a value and leaves the rest. -/
def Reads (r : Rule α) (tokens : List Token) (a : α) (rest : List Token) : Prop :=
  ∀ c : Cursor, c.At tokens → ∃ c', r c = .ok a c' ∧ c'.At rest

/-! ## Running a rule -/

theorem Reads.pure (a : α) (ts : List Token) : Reads (Pure.pure a) ts a ts := by
  intro c hc
  exact ⟨c, rfl, hc⟩

theorem Reads.bind {x : Rule α} {f : α → Rule β} {ts us rest : List Token} {a : α} {b : β}
    (hx : Reads x ts a us) (hf : Reads (f a) us b rest) : Reads (x >>= f) ts b rest := by
  intro c hc
  obtain ⟨d, hd, hdus⟩ := hx c hc
  obtain ⟨e, he, herest⟩ := hf d hdus
  refine ⟨e, ?_, herest⟩
  change EStateM.bind x f c = _
  rw [EStateM.bind, hd]
  exact he

theorem Reads.map {x : Rule α} (f : α → β) {ts rest : List Token} {a : α} (hx : Reads x ts a rest) :
    Reads (f <$> x) ts (f a) rest := by
  intro c hc
  obtain ⟨d, hd, hdrest⟩ := hx c hc
  refine ⟨d, ?_, hdrest⟩
  change EStateM.map f x c = _
  rw [EStateM.map, hd]

/-- A rule that first looks at the cursor. -/
theorem Reads.get {f : Cursor → Rule β} {ts rest : List Token} {b : β}
    (h : ∀ c : Cursor, c.At ts → Reads (f c) ts b rest) :
    Reads (MonadState.get >>= f) ts b rest := by
  intro c hc
  exact h c hc c hc

theorem reads_look {t : Token} {k : Kind} (hk : t.kind? = some k) (ts : List Token) :
    Reads look (t :: ts) k (t :: ts) := by
  intro c hc
  refine ⟨c, ?_, hc⟩
  change kindOf c.current c = _
  rw [hc.current, kindOf, hk]
  rfl

theorem reads_lookNext {t u : Token} {k : Kind} (hk : u.kind? = some k) (ts : List Token) :
    Reads lookNext (t :: u :: ts) k (t :: u :: ts) := by
  intro c hc
  refine ⟨c, ?_, hc⟩
  change kindOf c.next c = _
  rw [hc.next, kindOf, hk]
  rfl

theorem reads_step (t : Token) {ts : List Token} (hts : ts ≠ []) : Reads step (t :: ts) () ts := by
  intro c hc
  obtain ⟨u, us, rfl⟩ := List.exists_cons_of_ne_nil hts
  refine ⟨{ c with current := u, rest := us }, ?_, hc.1, rfl⟩
  rw [step, hc.rest]

theorem reads_advance {t : Token} {k : Kind} (hk : t.kind? = some k) (hne : k ≠ .eof)
    {ts : List Token} (hts : ts ≠ []) : Reads advance (t :: ts) t ts := by
  refine Reads.get fun c hc => ?_
  refine Reads.bind (reads_look hk ts) ?_
  rw [hc.current, if_pos hne]
  exact Reads.bind (reads_step t hts) (Reads.pure t ts)

theorem reads_consume {t : Token} {k : Kind} (site : Site) (hk : t.kind? = some k) (hne : k ≠ .eof)
    {ts : List Token} (hts : ts ≠ []) : Reads (consume site k) (t :: ts) t ts := by
  refine Reads.bind (reads_look hk ts) ?_
  rw [if_pos rfl]
  exact reads_advance hk hne hts

theorem reads_accept {t : Token} {k : Kind} (hk : t.kind? = some k) (hne : k ≠ .eof)
    {ts : List Token} (hts : ts ≠ []) : Reads (accept k) (t :: ts) true ts := by
  refine Reads.bind (reads_look hk ts) ?_
  rw [if_pos rfl]
  exact Reads.bind (reads_advance hk hne hts) (Reads.pure true ts)

/-- A token of another kind is not accepted, and stays. -/
theorem reads_accept_other {t : Token} {j k : Kind} (hk : t.kind? = some j) (hne : j ≠ k)
    (ts : List Token) : Reads (accept k) (t :: ts) false (t :: ts) := by
  refine Reads.bind (reads_look hk ts) ?_
  rw [if_neg hne]
  exact Reads.pure false (t :: ts)

theorem reads_budget {c : Cursor} {ts : List Token} (hc : c.At ts) :
    budget c = .ok ts.length c := by
  rw [← hc.2]
  rfl

/-- The budget is the number of tokens that are left. -/
theorem Reads.budget {f : Nat → Rule β} {ts rest : List Token} {b : β}
    (h : Reads (f ts.length) ts b rest) : Reads (budget >>= f) ts b rest :=
  Reads.bind (fun c hc => ⟨c, reads_budget hc, hc⟩) h

/-! ## Rules that succeeded -/

theorem pure_ok {a b : α} {c d : Cursor} (h : (Pure.pure a : Rule α) c = .ok b d) :
    b = a ∧ d = c := by
  cases h
  exact ⟨rfl, rfl⟩

theorem bind_ok {x : Rule α} {f : α → Rule β} {b : β} {c e : Cursor}
    (h : (x >>= f) c = .ok b e) : ∃ a d, x c = .ok a d ∧ f a d = .ok b e := by
  change EStateM.bind x f c = _ at h
  rw [EStateM.bind] at h
  cases hx : x c with
  | ok a d =>
    rw [hx] at h
    exact ⟨a, d, rfl, h⟩
  | error error d =>
    rw [hx] at h
    cases h

theorem map_ok {x : Rule α} {f : α → β} {b : β} {c d : Cursor} (h : (f <$> x) c = .ok b d) :
    ∃ a, x c = .ok a d ∧ b = f a := by
  change EStateM.map f x c = _ at h
  rw [EStateM.map] at h
  cases hx : x c with
  | ok a e =>
    rw [hx] at h
    cases h
    exact ⟨a, rfl, rfl⟩
  | error error e =>
    rw [hx] at h
    cases h

theorem get_ok {f : Cursor → Rule β} {b : β} {c e : Cursor}
    (h : (MonadState.get >>= f) c = .ok b e) : f c c = .ok b e :=
  h

theorem kindOf_ok {t : Token} {k : Kind} {c d : Cursor} (h : kindOf t c = .ok k d) :
    t.kind? = some k ∧ d = c := by
  rw [kindOf] at h
  cases ht : t.kind? with
  | none =>
    rw [ht] at h
    cases h
  | some j =>
    rw [ht] at h
    obtain ⟨rfl, rfl⟩ := pure_ok h
    exact ⟨rfl, rfl⟩

theorem look_ok {ts : List Token} {k : Kind} {c d : Cursor} (hc : c.At ts)
    (h : look c = .ok k d) : d = c ∧ ∃ t us, ts = t :: us ∧ t.kind? = some k := by
  obtain ⟨hk, rfl⟩ := kindOf_ok (get_ok h)
  exact ⟨rfl, d.current, d.rest, hc.2.symm, hk⟩

theorem lookNext_ok {t : Token} {ts : List Token} {k : Kind} {c d : Cursor} (hc : c.At (t :: ts))
    (h : lookNext c = .ok k d) : d = c ∧ (ts.headD t).kind? = some k := by
  obtain ⟨hk, rfl⟩ := kindOf_ok (get_ok h)
  rw [Cursor.next, hc.rest, hc.current] at hk
  exact ⟨rfl, hk⟩

theorem step_ok {t : Token} {ts : List Token} {c d : Cursor} (hc : c.At (t :: ts))
    (h : step c = .ok () d) : d.At ts := by
  rw [step, hc.rest] at h
  cases ts with
  | nil => cases h
  | cons u us =>
    cases h
    exact ⟨hc.1, rfl⟩

theorem advance_ok {t u : Token} {ts : List Token} {k : Kind} {c d : Cursor} (hc : c.At (t :: ts))
    (hk : t.kind? = some k) (hne : k ≠ .eof) (h : advance c = .ok u d) : u = t ∧ d.At ts := by
  obtain ⟨j, c₁, h₁, h⟩ := bind_ok (get_ok h)
  obtain ⟨rfl, t', us, heq, hj⟩ := look_ok hc h₁
  cases heq
  obtain rfl : k = j := Option.some.inj (hk.symm.trans hj)
  rw [if_pos hne] at h
  obtain ⟨_, c₂, h₂, h⟩ := bind_ok h
  obtain ⟨rfl, rfl⟩ := pure_ok h
  exact ⟨hc.current, step_ok hc h₂⟩

theorem consume_ok {ts : List Token} {u : Token} {site : Site} {k : Kind} {c d : Cursor}
    (hc : c.At ts) (hne : k ≠ .eof) (h : consume site k c = .ok u d) :
    ∃ us, ts = u :: us ∧ u.kind? = some k ∧ d.At us := by
  obtain ⟨j, c₁, h₁, h₂⟩ := bind_ok h
  obtain ⟨rfl, t, us, rfl, hj⟩ := look_ok hc h₁
  by_cases hjk : j = k
  · subst hjk
    rw [if_pos rfl] at h₂
    obtain ⟨rfl, hd⟩ := advance_ok hc hj hne h₂
    exact ⟨us, rfl, hj, hd⟩
  · rw [if_neg hjk] at h₂
    cases h₂

/-- The current token was accepted, or it is of another kind. -/
theorem accept_ok {ts : List Token} {k : Kind} {b : Bool} {c d : Cursor} (hc : c.At ts)
    (hne : k ≠ .eof) (h : accept k c = .ok b d) :
    (b = true ∧ ∃ t us, ts = t :: us ∧ t.kind? = some k ∧ d.At us) ∨
      (b = false ∧ d = c ∧ ∃ t us j, ts = t :: us ∧ t.kind? = some j ∧ j ≠ k) := by
  obtain ⟨j, c₁, h₁, h₂⟩ := bind_ok h
  obtain ⟨rfl, t, us, rfl, hj⟩ := look_ok hc h₁
  by_cases hjk : j = k
  · subst hjk
    rw [if_pos rfl] at h₂
    obtain ⟨u, c₂, h₃, h₄⟩ := bind_ok h₂
    obtain ⟨rfl, rfl⟩ := pure_ok h₄
    obtain ⟨rfl, hd⟩ := advance_ok hc hj hne h₃
    exact Or.inl ⟨rfl, u, us, rfl, hj, hd⟩
  · rw [if_neg hjk] at h₂
    obtain ⟨rfl, rfl⟩ := pure_ok h₂
    exact Or.inr ⟨rfl, rfl, t, us, j, rfl, hj, hjk⟩

/-! ## Sequences that succeeded

The first part of a sequence, taken apart together with what is known of it. -/

theorem look_bind {f : Kind → Rule β} {ts : List Token} {b : β} {c e : Cursor} (hc : c.At ts)
    (h : (look >>= f) c = .ok b e) :
    ∃ k t us, ts = t :: us ∧ t.kind? = some k ∧ f k c = .ok b e := by
  obtain ⟨k, d, h₁, h₂⟩ := bind_ok h
  obtain ⟨rfl, t, us, rfl, hk⟩ := look_ok hc h₁
  exact ⟨k, t, us, rfl, hk, h₂⟩

theorem advance_bind {f : Token → Rule β} {t : Token} {ts : List Token} {k : Kind} {b : β}
    {c e : Cursor} (hc : c.At (t :: ts)) (hk : t.kind? = some k) (hne : k ≠ .eof)
    (h : (advance >>= f) c = .ok b e) : ∃ d, d.At ts ∧ f t d = .ok b e := by
  obtain ⟨u, d, h₁, h₂⟩ := bind_ok h
  obtain ⟨rfl, hd⟩ := advance_ok hc hk hne h₁
  exact ⟨d, hd, h₂⟩

theorem consume_bind {site : Site} {k : Kind} {f : Token → Rule β} {ts : List Token} {b : β}
    {c e : Cursor} (hc : c.At ts) (hne : k ≠ .eof) (h : (consume site k >>= f) c = .ok b e) :
    ∃ t us d, ts = t :: us ∧ t.kind? = some k ∧ d.At us ∧ f t d = .ok b e := by
  obtain ⟨t, d, h₁, h₂⟩ := bind_ok h
  obtain ⟨us, rfl, hk, hd⟩ := consume_ok hc hne h₁
  exact ⟨t, us, d, rfl, hk, hd, h₂⟩

theorem budget_bind {f : Nat → Rule β} {ts : List Token} {b : β} {c e : Cursor} (hc : c.At ts)
    (h : (budget >>= f) c = .ok b e) : f ts.length c = .ok b e := by
  obtain ⟨n, d, h₁, h₂⟩ := bind_ok h
  rw [reads_budget hc] at h₁
  cases h₁
  exact h₂

end Rule
end QueryPipeline
