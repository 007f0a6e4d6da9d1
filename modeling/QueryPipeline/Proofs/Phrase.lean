import QueryPipeline.Proofs.Rule

/-!
# Phrases

A grammar says which sequences of tokens can be read as what.  A `Phrase` is such a relation, and
the phrases here are the ways in which a grammar builds one from another: an optional mark (`Flag`),
a part behind a mark (`Behind`, and `After` where both may be missing), an optional part (`Maybe`)
and lists without and with separators (`Repeated`, `Separated`).

A rule is tied to a phrase in two directions.

* `Rule.Sound r P`: what `r` reads is a phrase of `P`.
* `Rule.Complete r P S`: `r` reads every phrase of `P`, provided that the kind of the token behind
  it is in `S`.  A rule takes as much as it can, so the next token has to be one that does not go on
  with the phrase; `S` is the set of kinds for which this is certain.

Each way of building has its rule (`accept`, `after`, `sepBy`), with one lemma for each direction.
Where a phrase depends on the kind of the token behind it, the relation has that kind as an argument
(`SeparatedBefore`, `SoundBefore`, `CompleteBefore`).
-/

namespace QueryPipeline

/-- What sequences of tokens can be read as. -/
abbrev Phrase (α : Type) := List Token → α → Prop

namespace Phrase

variable {α : Type}

/-- A token of a kind, or nothing. -/
inductive Flag (k : Kind) : Phrase Bool
  | absent : Flag k [] false
  | present {t : Token} : t.kind? = some k → Flag k [t] true

/-- A token of a kind and a phrase behind it, or nothing. -/
inductive After (k : Kind) (P : Phrase α) : Phrase (Option α)
  | absent : After k P [] none
  | present {t : Token} {us : List Token} {a : α} :
      t.kind? = some k → P us a → After k P (t :: us) (some a)

/-- A token of a kind and a phrase behind it. -/
inductive Behind (k : Kind) (P : Phrase α) : Phrase α
  | mk {t : Token} {us : List Token} {a : α} : t.kind? = some k → P us a → Behind k P (t :: us) a

/-- A phrase, or nothing. -/
inductive Maybe (P : Phrase α) : Phrase (Option α)
  | absent : Maybe P [] none
  | present {us : List Token} {a : α} : P us a → Maybe P us (some a)

/-- Phrases with tokens of a kind between them, one at least. -/
inductive Separated (k : Kind) (P : Phrase α) : Phrase (List α)
  | one {us : List Token} {a : α} : P us a → Separated k P us [a]
  | more {us vs : List Token} {t : Token} {a : α} {as : List α} :
      P us a → t.kind? = some k → Separated k P vs as → Separated k P (us ++ t :: vs) (a :: as)

/-- Phrases, one behind the other. -/
inductive Repeated (P : Phrase α) : Phrase (List α)
  | nil : Repeated P [] []
  | cons {us vs : List Token} {a : α} {as : List α} :
      P us a → Repeated P vs as → Repeated P (us ++ vs) (a :: as)

/-- The kind of the first token. -/
def headKind (ts : List Token) : Option Kind :=
  ts.head?.bind Token.kind?

/-- The kind of the first token of some tokens with a token of kind `next` behind them. -/
def kindBehind (us : List Token) (next : Option Kind) : Option Kind :=
  match us with
  | [] => next
  | t :: _ => t.kind?

theorem headKind_append (us rest : List Token) :
    headKind (us ++ rest) = kindBehind us (headKind rest) := by
  cases us <;> rfl

/-- Phrases with tokens of a kind between them, where the kind of the token behind a phrase makes a
difference: the separator, and `next` behind the last one. -/
inductive SeparatedBefore (k : Kind) (P : Option Kind → Phrase α) (next : Option Kind) :
    Phrase (List α)
  | one {us : List Token} {a : α} : P next us a → SeparatedBefore k P next us [a]
  | more {us vs : List Token} {t : Token} {a : α} {as : List α} :
      P (some k) us a → t.kind? = some k → SeparatedBefore k P next vs as →
      SeparatedBefore k P next (us ++ t :: vs) (a :: as)

/-- Phrases with a token of a kind behind each of them. -/
inductive Closed (k : Kind) (P : Option Kind → Phrase α) : Phrase (List α)
  | nil : Closed k P [] []
  | cons {us vs : List Token} {t : Token} {a : α} {as : List α} :
      P (some k) us a → t.kind? = some k → Closed k P vs as → Closed k P (us ++ t :: vs) (a :: as)

/-- A list is the phrases with a separator behind them, and a last one. -/
theorem SeparatedBefore.closed {k : Kind} {P : Option Kind → Phrase α} {next : Option Kind}
    {us : List Token} {as : List α} (h : SeparatedBefore k P next us as) :
    ∃ vs ws bs b, us = vs ++ ws ∧ as = bs ++ [b] ∧ Closed k P vs bs ∧ P next ws b := by
  induction h with
  | one h => exact ⟨[], _, [], _, rfl, rfl, .nil, h⟩
  | more h hk _ ih =>
    obtain ⟨vs, ws, bs, b, rfl, rfl, hvs, hws⟩ := ih
    exact ⟨_, ws, _, b, by simp, by simp, .cons h hk hvs, hws⟩

theorem SeparatedBefore.separated {k : Kind} {P : Phrase α} {next : Option Kind}
    {us : List Token} {as : List α} (h : SeparatedBefore k (fun _ => P) next us as) :
    Separated k P us as := by
  induction h with
  | one h => exact .one h
  | more h hk _ ih => exact .more h hk ih

theorem Separated.before {k : Kind} {P : Phrase α} {us : List Token} {as : List α}
    (h : Separated k P us as) (next : Option Kind) :
    SeparatedBefore k (fun _ => P) next us as := by
  induction h with
  | one h => exact .one h
  | more h hk _ ih => exact .more h hk ih

theorem SeparatedBefore.mono {k : Kind} {P Q : Option Kind → Phrase α} {next : Option Kind}
    (hsep : ∀ us a, P (some k) us a → Q (some k) us a) (hnext : ∀ us a, P next us a → Q next us a)
    {us : List Token} {as : List α} (h : SeparatedBefore k P next us as) :
    SeparatedBefore k Q next us as := by
  induction h with
  | one h => exact .one (hnext _ _ h)
  | more h hk _ ih => exact .more (hsep _ _ h) hk ih

/-- The first token is of one of some kinds. -/
def Begins (S : Kind → Prop) (us : List Token) : Prop :=
  ∃ t vs k, us = t :: vs ∧ t.kind? = some k ∧ S k

theorem Begins.ne_nil {S : Kind → Prop} {us : List Token} (h : Begins S us) : us ≠ [] := by
  obtain ⟨t, vs, k, rfl, _⟩ := h
  simp

theorem Begins.append {S : Kind → Prop} {us : List Token} (h : Begins S us) (vs : List Token) :
    Begins S (us ++ vs) := by
  obtain ⟨t, ws, k, rfl, hk, hS⟩ := h
  exact ⟨t, ws ++ vs, k, rfl, hk, hS⟩

theorem Begins.mono {S T : Kind → Prop} {us : List Token} (h : Begins S us)
    (hST : ∀ k, S k → T k) : Begins T us := by
  obtain ⟨t, ws, k, rfl, hk, hS⟩ := h
  exact ⟨t, ws, k, rfl, hk, hST k hS⟩

/-- If a clause may be missing, what stands first is its mark or the first token behind it. -/
theorem After.begins {k : Kind} {P : Phrase α} {us : List Token} {o : Option α}
    (h : After k P us o) {S T : Kind → Prop} (hk : T k) {ts : List Token} (hts : Begins S ts)
    (hST : ∀ j, S j → T j) : Begins T (us ++ ts) := by
  cases h with
  | absent => exact hts.mono hST
  | present ht => exact ⟨_, _, k, rfl, ht, hk⟩

/-- What holds of every part of a list holds of its items, of which there is one at least. -/
theorem Separated.forall_mem {k : Kind} {P : Phrase α} {Q : α → Prop} {us : List Token}
    {as : List α} (h : Separated k P us as) (hQ : ∀ vs a, vs <:+: us → P vs a → Q a) :
    as ≠ [] ∧ ∀ a ∈ as, Q a := by
  induction h with
  | one h => exact ⟨by simp, List.forall_mem_singleton.mpr (hQ _ _ List.infix_rfl h)⟩
  | @more us vs t a as h hk _ ih =>
    have hsub : vs <:+: us ++ t :: vs := ⟨us ++ [t], [], by simp⟩
    refine ⟨by simp, List.forall_mem_cons.mpr ⟨?_, ?_⟩⟩
    · exact hQ us a (List.infix_append_left ..) h
    · exact (ih fun ws b hws => hQ ws b (hws.trans hsub)).2

/-- The phrases of a bounded number of tokens. -/
def upTo (n : Nat) (P : Phrase α) : Phrase α :=
  fun us a => us.length ≤ n ∧ P us a

theorem Separated.upTo {k : Kind} {P : Phrase α} {n : Nat} {us : List Token} {as : List α}
    (h : Separated k P us as) (hn : us.length ≤ n) : Separated k (upTo n P) us as := by
  induction h with
  | one h => exact .one ⟨hn, h⟩
  | more h hk _ ih =>
    simp only [List.length_append, List.length_cons] at hn
    exact .more ⟨by omega, h⟩ hk (ih (by omega))

end Phrase

namespace Rule

variable {α : Type}

/-- What a rule reads is a phrase. -/
def Sound (r : Rule α) (P : Phrase α) : Prop :=
  ∀ ⦃c d : Cursor⦄ ⦃ts : List Token⦄ ⦃a : α⦄, c.At ts → r c = .ok a d →
    ∃ us rest, ts = us ++ rest ∧ d.At rest ∧ P us a

/-- A rule reads every phrase, if the kind of the token behind it is one of `S`. -/
def Complete (r : Rule α) (P : Phrase α) (S : Kind → Prop) : Prop :=
  ∀ ⦃us : List Token⦄ ⦃a : α⦄ ⦃t : Token⦄ ⦃k : Kind⦄ ⦃rest : List Token⦄,
    P us a → t.kind? = some k → S k → Reads r (us ++ t :: rest) a (t :: rest)

/-- What a rule reads is a phrase, given the kind of the token behind it. -/
def SoundBefore (r : Rule α) (P : Option Kind → Phrase α) : Prop :=
  ∀ ⦃c d : Cursor⦄ ⦃ts : List Token⦄ ⦃a : α⦄, c.At ts → r c = .ok a d →
    ∃ us rest, ts = us ++ rest ∧ d.At rest ∧ P (Phrase.headKind rest) us a

/-- A rule reads every phrase, given the kind of the token behind it. -/
def CompleteBefore (r : Rule α) (P : Option Kind → Phrase α) : Prop :=
  ∀ ⦃us : List Token⦄ ⦃a : α⦄ ⦃t : Token⦄ ⦃k : Kind⦄ ⦃rest : List Token⦄,
    P (some k) us a → t.kind? = some k → Reads r (us ++ t :: rest) a (t :: rest)

theorem Sound.mono {r : Rule α} {P Q : Phrase α} (h : Sound r P) (hPQ : ∀ us a, P us a → Q us a) :
    Sound r Q := by
  intro c d ts a hc hr
  obtain ⟨us, rest, heq, hd, hP⟩ := h hc hr
  exact ⟨us, rest, heq, hd, hPQ us a hP⟩

/-- The first part of a sequence that succeeded. -/
theorem SoundBefore.bind {β : Type} {r : Rule α} {f : α → Rule β} {P : Option Kind → Phrase α}
    (hr : SoundBefore r P) {ts : List Token} {b : β} {c e : Cursor} (hc : c.At ts)
    (h : (r >>= f) c = .ok b e) :
    ∃ us rest a d, ts = us ++ rest ∧ d.At rest ∧ P (Phrase.headKind rest) us a ∧
      f a d = .ok b e := by
  obtain ⟨a, d, h₁, h₂⟩ := bind_ok h
  obtain ⟨us, rest, heq, hd, hP⟩ := hr hc h₁
  exact ⟨us, rest, a, d, heq, hd, hP, h₂⟩

theorem Sound.bind {β : Type} {r : Rule α} {f : α → Rule β} {P : Phrase α} (hr : Sound r P)
    {ts : List Token} {b : β} {c e : Cursor} (hc : c.At ts) (h : (r >>= f) c = .ok b e) :
    ∃ us rest a d, ts = us ++ rest ∧ d.At rest ∧ P us a ∧ f a d = .ok b e :=
  SoundBefore.bind (show SoundBefore r fun _ => P from hr) hc h

theorem Complete.mono {r : Rule α} {P Q : Phrase α} {S T : Kind → Prop} (h : Complete r P S)
    (hPQ : ∀ us a, Q us a → P us a) (hST : ∀ k, T k → S k) : Complete r Q T :=
  fun _ _ _ _ _ hQ hk hT => h (hPQ _ _ hQ) hk (hST _ hT)

theorem Complete.reads {r : Rule α} {P : Phrase α} {S : Kind → Prop} (h : Complete r P S)
    {us : List Token} {a : α} (hP : P us a) {ts : List Token} (hts : Phrase.Begins S ts) :
    Reads r (us ++ ts) a ts := by
  obtain ⟨t, rest, k, rfl, hk, hS⟩ := hts
  exact h hP hk hS

/-! ## Optional parts -/

theorem accept_sound {k : Kind} (hne : k ≠ .eof) : Sound (accept k) (Phrase.Flag k) := by
  intro c d ts b hc h
  rcases accept_ok hc hne h with ⟨rfl, t, us, rfl, hk, hd⟩ | ⟨rfl, rfl, _⟩
  · exact ⟨[t], us, rfl, hd, .present hk⟩
  · exact ⟨[], ts, rfl, hc, .absent⟩

theorem accept_complete {k : Kind} (hne : k ≠ .eof) :
    Complete (accept k) (Phrase.Flag k) (· ≠ k) := by
  intro us b t j rest h ht hj
  cases h with
  | absent => exact reads_accept_other ht hj rest
  | present hk => exact reads_accept hk hne (by simp)

theorem after_sound {k : Kind} {r : Rule α} {P : Phrase α} (hne : k ≠ .eof) (hr : Sound r P) :
    Sound (after k r) (Phrase.After k P) := by
  intro c d ts o hc h
  obtain ⟨b, c₁, h₁, h₂⟩ := bind_ok h
  rcases accept_ok hc hne h₁ with ⟨rfl, t, us, rfl, hk, hc₁⟩ | ⟨rfl, rfl, _⟩
  · obtain ⟨a, c₂, h₃, h₄⟩ := bind_ok h₂
    obtain ⟨rfl, rfl⟩ := pure_ok h₄
    obtain ⟨vs, rest, rfl, hd, hP⟩ := hr hc₁ h₃
    exact ⟨t :: vs, rest, rfl, hd, .present hk hP⟩
  · obtain ⟨rfl, rfl⟩ := pure_ok h₂
    exact ⟨[], ts, rfl, hc, .absent⟩

theorem after_complete {k : Kind} {r : Rule α} {P : Phrase α} {S : Kind → Prop} (hne : k ≠ .eof)
    (hr : Complete r P S) : Complete (after k r) (Phrase.After k P) (fun j => j ≠ k ∧ S j) := by
  intro us o t j rest h ht hj
  cases h with
  | absent =>
    refine Reads.bind (reads_accept_other ht hj.1 rest) ?_
    exact Reads.pure none (t :: rest)
  | present hk hP =>
    refine Reads.bind (reads_accept hk hne (by simp)) ?_
    refine Reads.bind (hr hP ht hj.2) ?_
    exact Reads.pure _ _

theorem behind_sound {site : Site} {k : Kind} {r : Rule α} {P : Phrase α} (hne : k ≠ .eof)
    (hr : Sound r P) : Sound (consume site k >>= fun _ => r) (Phrase.Behind k P) := by
  intro c d ts a hc h
  obtain ⟨t, ts₁, c₁, rfl, hk, hc₁, h₂⟩ := consume_bind hc hne h
  obtain ⟨us, rest, rfl, hd, hP⟩ := hr hc₁ h₂
  exact ⟨t :: us, rest, rfl, hd, .mk hk hP⟩

theorem behind_complete {site : Site} {k : Kind} {r : Rule α} {P : Phrase α} {S : Kind → Prop}
    (hne : k ≠ .eof) (hr : Complete r P S) :
    Complete (consume site k >>= fun _ => r) (Phrase.Behind k P) S := by
  intro us a t j rest h ht hj
  cases h with
  | mk hk hP => exact Reads.bind (reads_consume site hk hne (by simp)) (hr hP ht hj)

/-! ## Lists -/

/-- The items behind separators continue a list that has begun. -/
theorem itemsAfter_sound {k : Kind} {r : Rule α} {P : Option Kind → Phrase α} (hne : k ≠ .eof)
    (hr : SoundBefore r P) : ∀ (n : Nat) {c d : Cursor} {ts us : List Token} {a : α} {as : List α},
      c.At ts → P (Phrase.headKind ts) us a → itemsAfter k r n c = .ok as d →
        ∃ vs rest, ts = vs ++ rest ∧ d.At rest ∧
          Phrase.SeparatedBefore k P (Phrase.headKind rest) (us ++ vs) (a :: as) := by
  intro n
  induction n with
  | zero =>
    intro c d ts us a as hc hP h
    obtain ⟨rfl, rfl⟩ := pure_ok h
    exact ⟨[], ts, rfl, hc, by simpa using .one hP⟩
  | succ n ih =>
    intro c d ts us a as hc hP h
    obtain ⟨b, c₁, h₁, h₂⟩ := bind_ok h
    rcases accept_ok hc hne h₁ with ⟨rfl, t, ts₁, rfl, hk, hc₁⟩ | ⟨rfl, rfl, _⟩
    · obtain ⟨x, c₂, h₃, h₄⟩ := bind_ok h₂
      obtain ⟨xs, c₃, h₅, h₆⟩ := bind_ok h₄
      obtain ⟨rfl, rfl⟩ := pure_ok h₆
      obtain ⟨vs, ts₂, rfl, hc₂, hx⟩ := hr hc₁ h₃
      obtain ⟨ws, rest, rfl, hd, hxs⟩ := ih hc₂ hx h₅
      have hsep : Phrase.headKind (t :: (vs ++ (ws ++ rest))) = some k := hk
      rw [hsep] at hP
      exact ⟨t :: (vs ++ ws), rest, by simp, hd, .more hP hk hxs⟩
    · obtain ⟨rfl, rfl⟩ := pure_ok h₂
      exact ⟨[], ts, rfl, hc, by simpa using .one hP⟩

theorem sepBy_soundBefore {k : Kind} {r : Rule α} {P : Option Kind → Phrase α} (hne : k ≠ .eof)
    (hr : SoundBefore r P) : SoundBefore (sepBy k r) (Phrase.SeparatedBefore k P) := by
  intro c d ts as hc h
  obtain ⟨x, c₁, h₁, h₂⟩ := bind_ok h
  obtain ⟨n, c₂, h₃, h₄⟩ := bind_ok h₂
  obtain ⟨us, ts₁, rfl, hc₁, hx⟩ := hr hc h₁
  rw [reads_budget hc₁] at h₃
  cases h₃
  obtain ⟨xs, c₃, h₅, h₆⟩ := bind_ok h₄
  obtain ⟨rfl, rfl⟩ := pure_ok h₆
  obtain ⟨vs, rest, rfl, hd, hxs⟩ := itemsAfter_sound hne hr _ hc₁ hx h₅
  exact ⟨us ++ vs, rest, by simp, hd, hxs⟩

theorem sepBy_sound {k : Kind} {r : Rule α} {P : Phrase α} (hne : k ≠ .eof) (hr : Sound r P) :
    Sound (sepBy k r) (Phrase.Separated k P) := by
  have hbefore : SoundBefore r (fun _ => P) := hr
  intro c d ts as hc h
  obtain ⟨us, rest, heq, hd, hus⟩ := sepBy_soundBefore hne hbefore hc h
  exact ⟨us, rest, heq, hd, hus.separated⟩

/-- Behind the first item, the loop reads the items that have a separator behind them, and a last
one.  Its bound only has to reach as far as there are tokens. -/
theorem itemsAfter_complete {k : Kind} {r : Rule α} {P : Option Kind → Phrase α} (hne : k ≠ .eof)
    (hr : ∀ us a t rest, P (some k) us a → t.kind? = some k →
      Reads r (us ++ t :: rest) a (t :: rest))
    {ws ts : List Token} {b : α} (hlast : Reads r (ws ++ ts) b ts)
    (hts : Phrase.Begins (· ≠ k) ts) {vs : List Token} {bs : List α}
    (h : Phrase.Closed k P vs bs) :
    ∃ us x xs, bs ++ [b] = x :: xs ∧ us.length ≤ (vs ++ (ws ++ ts)).length ∧
      Reads r (vs ++ (ws ++ ts)) x us ∧
      ∀ n, us.length ≤ n → Reads (itemsAfter k r n) us xs ts := by
  induction h with
  | nil =>
    refine ⟨ts, b, [], rfl, by simp, hlast, ?_⟩
    intro n _
    obtain ⟨t, rest, j, rfl, ht, hj⟩ := hts
    cases n with
    | zero => exact Reads.pure _ _
    | succ n => exact Reads.bind (reads_accept_other ht hj rest) (Reads.pure _ _)
  | @cons us vs s a as hP hs _ ih =>
    obtain ⟨us', x, xs, heq, hlength, hx, hxs⟩ := ih
    refine ⟨s :: (vs ++ (ws ++ ts)), a, x :: xs, by rw [List.cons_append, heq], by simp, ?_, ?_⟩
    · rw [List.append_assoc]
      exact hr _ _ _ _ hP hs
    · intro n hn
      rw [List.length_cons] at hn
      obtain ⟨m, rfl⟩ : ∃ m, n = m + 1 := ⟨n - 1, by omega⟩
      refine Reads.bind (reads_accept hs hne (by simp [hts.ne_nil])) ?_
      refine Reads.bind hx ?_
      refine Reads.bind (hxs m (by omega)) ?_
      exact Reads.pure _ _

/-- Items with a separator behind them, and a last one. -/
theorem reads_sepBy {k : Kind} {r : Rule α} {P : Option Kind → Phrase α} (hne : k ≠ .eof)
    (hr : ∀ us a t rest, P (some k) us a → t.kind? = some k →
      Reads r (us ++ t :: rest) a (t :: rest))
    {vs ws ts : List Token} {bs : List α} {b : α} (h : Phrase.Closed k P vs bs)
    (hlast : Reads r (ws ++ ts) b ts) (hts : Phrase.Begins (· ≠ k) ts) :
    Reads (sepBy k r) (vs ++ (ws ++ ts)) (bs ++ [b]) ts := by
  obtain ⟨us, x, xs, heq, _, hx, hxs⟩ := itemsAfter_complete hne hr hlast hts h
  rw [heq]
  refine Reads.bind hx ?_
  refine Reads.budget ?_
  refine Reads.bind (hxs _ (Nat.le_refl _)) ?_
  exact Reads.pure _ _

theorem sepBy_completeBefore {k : Kind} {r : Rule α} {P : Option Kind → Phrase α} (hne : k ≠ .eof)
    (hr : CompleteBefore r P) :
    CompleteBefore (sepBy k r)
      (fun next us as => next ≠ some k ∧ Phrase.SeparatedBefore k P next us as) := by
  rintro us as t j rest ⟨hj, h⟩ ht
  obtain ⟨vs, ws, bs, b, rfl, rfl, hvs, hws⟩ := h.closed
  rw [List.append_assoc]
  refine reads_sepBy hne (fun _ _ _ _ hP hk => hr hP hk) hvs (hr hws ht) ⟨t, rest, j, rfl, ht, ?_⟩
  exact fun heq => hj (congrArg some heq)

theorem sepBy_complete {k : Kind} {r : Rule α} {P : Phrase α} {S : Kind → Prop} (hne : k ≠ .eof)
    (hr : Complete r P S) (hk : S k) :
    Complete (sepBy k r) (Phrase.Separated k P) (fun j => j ≠ k ∧ S j) := by
  have hbefore : CompleteBefore r (fun next us a => P us a ∧ ∃ j, next = some j ∧ S j) := by
    rintro us a t j rest ⟨hP, _, ⟨⟩, hS⟩ ht
    exact hr hP ht hS
  intro us as t j rest h ht hj
  refine sepBy_completeBefore hne hbefore ⟨fun heq => hj.1 (Option.some.inj heq), ?_⟩ ht
  exact (h.before (some j)).mono (fun _ _ hP => ⟨hP, k, rfl, hk⟩) fun _ _ hP => ⟨hP, j, rfl, hj.2⟩

end Rule
end QueryPipeline
