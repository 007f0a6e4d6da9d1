import QueryPipeline.Proofs.Phrase

/-!
# What stands in front of a failure

A rule that fails blames a token (`ParseError.token?`), and the question is what it has seen before
that token.  `Rule.Blames r ts Q` says: if `r` fails from `ts` on and blames a token, then it is one
of `ts`, and the tokens in front of it are in `Q`.  A set `Q` that matters is `Phrase.Started P`,
the starts of the phrases of `P`: it says that one could still go on from there to a phrase.

As for `Rule.Reads`, there is one lemma for each primitive rule.  `Blames.bind` follows a sequence:
where its second part fails, the first one has read a phrase, which stands in front of what the
second part has seen.
-/

namespace QueryPipeline

/-- The token that an error is about. -/
def ParseError.token? : ParseError → Option Token
  | .unexpected _ actual _ => some actual
  | .statementStart token => some token
  | _ => none

namespace Phrase

variable {α β : Type} {P : Phrase α} {Q : Phrase β} {us : List Token}

/-- Tokens at the start of a phrase. -/
def Started (P : Phrase α) (us : List Token) : Prop :=
  ∃ vs a, P (us ++ vs) a

theorem started_of {a : α} (h : P us a) : Started P us :=
  ⟨[], a, by rwa [List.append_nil]⟩

theorem started_nil {a : α} (h : P us a) : Started P [] :=
  ⟨us, a, h⟩

theorem Started.mono (h : Started P us) (hPQ : ∀ vs a, P vs a → ∃ b, Q vs b) : Started Q us := by
  obtain ⟨vs, a, hP⟩ := h
  obtain ⟨b, hQ⟩ := hPQ _ a hP
  exact ⟨vs, b, hQ⟩

/-- If the rest of a phrase, with some tokens behind it, completes other tokens, then these are a
start too. -/
theorem Started.close {vs : List Token} (h : Started P us) (back : List Token)
    (hPQ : ∀ ws a, P (us ++ ws) a → ∃ b, Q (vs ++ (ws ++ back)) b) : Started Q vs := by
  obtain ⟨ws, a, hP⟩ := h
  obtain ⟨b, hQ⟩ := hPQ ws a hP
  exact ⟨ws ++ back, b, hQ⟩

end Phrase

namespace Rule

open Phrase (Started)

variable {α β : Type} {ts : List Token} {Q R : List Token → Prop}

/-- If a rule fails and blames a token, the tokens in front of it are in `Q`. -/
def Blames (r : Rule α) (ts : List Token) (Q : List Token → Prop) : Prop :=
  ∀ ⦃c d : Cursor⦄ ⦃e : ParseError⦄ ⦃t : Token⦄, c.At ts → r c = .error e d → e.token? = some t →
    ∃ us rest, ts = us ++ t :: rest ∧ Q us

/-- What is known of the tokens in front may depend on all the tokens. -/
theorem Blames.monoAt {r : Rule α} (h : Blames r ts Q)
    (hQR : ∀ us t rest, ts = us ++ t :: rest → Q us → R us) : Blames r ts R := by
  intro c d e t hc hr ht
  obtain ⟨us, rest, heq, hQ⟩ := h hc hr ht
  exact ⟨us, rest, heq, hQR us t rest heq hQ⟩

theorem Blames.mono {r : Rule α} (h : Blames r ts Q) (hQR : ∀ us, Q us → R us) :
    Blames r ts R :=
  h.monoAt fun us _ _ _ => hQR us

/-- A start of a phrase of one kind is a start of a phrase of another kind. -/
theorem Blames.widen {r : Rule α} {γ δ : Type} {P : Phrase γ} {P' : Phrase δ}
    (h : Blames r ts (Started P)) (hPP' : ∀ us a, P us a → ∃ b, P' us b) :
    Blames r ts (Started P') :=
  h.mono fun _ hus => hus.mono hPP'

/-! ## Sequences -/

theorem bind_error {x : Rule α} {f : α → Rule β} {e : ParseError} {c d : Cursor}
    (h : (x >>= f) c = .error e d) :
    x c = .error e d ∨ ∃ a c₁, x c = .ok a c₁ ∧ f a c₁ = .error e d := by
  change EStateM.bind x f c = _ at h
  rw [EStateM.bind] at h
  cases hx : x c with
  | ok a c₁ =>
    rw [hx] at h
    exact Or.inr ⟨a, c₁, rfl, h⟩
  | error e' c₁ =>
    rw [hx] at h
    cases h
    exact Or.inl rfl

/-- The first part of a sequence fails, or has read a phrase in front of what the rest sees. -/
theorem Blames.bindBefore {r : Rule α} {f : α → Rule β} {P : Option Kind → Phrase α}
    (hr : Blames r ts Q) (hsound : SoundBefore r P)
    (hf : ∀ us rest a, ts = us ++ rest → P (Phrase.headKind rest) us a →
      Blames (f a) rest fun vs => Q (us ++ vs)) : Blames (r >>= f) ts Q := by
  intro c d e t hc h ht
  rcases bind_error h with h | ⟨a, c₁, h₁, h₂⟩
  · exact hr hc h ht
  · obtain ⟨us, rest, rfl, hc₁, hP⟩ := hsound hc h₁
    obtain ⟨vs, rest, rfl, hQ⟩ := hf us rest a rfl hP hc₁ h₂ ht
    exact ⟨us ++ vs, rest, by simp, hQ⟩

theorem Blames.bind {r : Rule α} {f : α → Rule β} {P : Phrase α} (hr : Blames r ts Q)
    (hsound : Sound r P)
    (hf : ∀ us rest a, P us a → Blames (f a) rest fun vs => Q (us ++ vs)) :
    Blames (r >>= f) ts Q :=
  hr.bindBefore (show SoundBefore r fun _ => P from hsound) fun us rest a _ => hf us rest a

theorem Blames.map {r : Rule α} (f : α → β) (hr : Blames r ts Q) : Blames (f <$> r) ts Q := by
  intro c d e t hc h ht
  change EStateM.map f r c = _ at h
  rw [EStateM.map] at h
  cases hx : r c with
  | ok a c₁ =>
    rw [hx] at h
    cases h
  | error e' c₁ =>
    rw [hx] at h
    cases h
    exact hr hc hx ht

/-! ## Rules that blame no token -/

/-- A rule that never blames a token. -/
def Quiet (r : Rule α) : Prop :=
  ∀ ⦃c d : Cursor⦄ ⦃e : ParseError⦄, r c = .error e d → e.token? = none

theorem Quiet.blames {r : Rule α} (h : Quiet r) : Blames r ts Q := by
  intro c d e t _ hr ht
  rw [h hr] at ht
  cases ht

theorem quiet_pure (a : α) : Quiet (pure a : Rule α) := by
  intro c d e h
  cases h

theorem Quiet.bind {r : Rule α} {f : α → Rule β} (hr : Quiet r) (hf : ∀ a, Quiet (f a)) :
    Quiet (r >>= f) := by
  intro c d e h
  rcases bind_error h with h | ⟨a, c₁, _, h₂⟩
  · exact hr h
  · exact hf a h₂

/-- The rest of a sequence blames no token. -/
theorem Blames.bindQuiet {r : Rule α} {f : α → Rule β} (hr : Blames r ts Q)
    (hf : ∀ a, Quiet (f a)) : Blames (r >>= f) ts Q := by
  intro c d e t hc h ht
  rcases bind_error h with h | ⟨a, c₁, _, h₂⟩
  · exact hr hc h ht
  · rw [hf a h₂] at ht
    cases ht

theorem quiet_kindOf (t : Token) : Quiet (kindOf t) := by
  intro c d e h
  unfold kindOf at h
  cases ht : t.kind? with
  | some k =>
    rw [ht] at h
    cases h
  | none =>
    rw [ht] at h
    cases h
    rfl

theorem quiet_look : Quiet look :=
  fun c _ _ h => quiet_kindOf c.current h

theorem quiet_lookNext : Quiet lookNext :=
  fun c _ _ h => quiet_kindOf c.next h

theorem quiet_step : Quiet step := by
  intro c d e h
  unfold step at h
  cases hrest : c.rest with
  | cons next rest =>
    rw [hrest] at h
    cases h
  | nil =>
    rw [hrest] at h
    cases h
    rfl

theorem quiet_advance : Quiet advance := by
  intro c d e h
  have hrest : ∀ k : Kind,
      Quiet (if k ≠ .eof then (do step; pure c.current : Rule Token) else pure c.current) := by
    intro k
    split
    · exact quiet_step.bind fun _ => quiet_pure _
    · exact quiet_pure _
  exact quiet_look.bind hrest h

theorem quiet_accept (k : Kind) : Quiet (accept k) := by
  refine quiet_look.bind fun j => ?_
  split
  · exact quiet_advance.bind fun _ => quiet_pure true
  · exact quiet_pure false

/-! ## Primitive rules -/

theorem blames_pure (a : α) : Blames (pure a : Rule α) ts Q :=
  (quiet_pure a).blames

theorem Blames.get {f : Cursor → Rule β} (h : ∀ c : Cursor, c.At ts → Blames (f c) ts Q) :
    Blames (MonadState.get >>= f) ts Q := by
  intro c d e t hc hrun ht
  exact h c hc hc hrun ht

theorem Blames.look {f : Kind → Rule β}
    (h : ∀ t us k, ts = t :: us → t.kind? = some k → Blames (f k) ts Q) :
    Blames (look >>= f) ts Q := by
  intro c d e t hc hrun ht
  rcases bind_error hrun with hlook | ⟨k, c₁, h₁, h₂⟩
  · exact quiet_look.blames hc hlook ht
  · obtain ⟨rfl, s, us, heq, hk⟩ := look_ok hc h₁
    exact h s us k heq hk hc h₂ ht

theorem Blames.lookNext {f : Kind → Rule β} {t : Token} {us : List Token}
    (h : ∀ k, (us.headD t).kind? = some k → Blames (f k) (t :: us) Q) :
    Blames (lookNext >>= f) (t :: us) Q := by
  intro c d e s hc hrun hs
  rcases bind_error hrun with hlook | ⟨k, c₁, h₁, h₂⟩
  · exact quiet_lookNext.blames hc hlook hs
  · obtain ⟨rfl, hk⟩ := lookNext_ok hc h₁
    exact h k hk hc h₂ hs

theorem Blames.budget {f : Nat → Rule β} (h : ∀ n, Blames (f n) ts Q) :
    Blames (budget >>= f) ts Q := by
  intro c d e t hc hrun ht
  exact h _ hc hrun ht

theorem Blames.advance {f : Token → Rule β} {t : Token} {us : List Token} {k : Kind}
    (hk : t.kind? = some k) (hne : k ≠ .eof) (h : Blames (f t) us fun vs => Q (t :: vs)) :
    Blames (advance >>= f) (t :: us) Q := by
  intro c d e s hc hrun hs
  rcases bind_error hrun with hadvance | ⟨u, c₁, h₁, h₂⟩
  · exact quiet_advance.blames hc hadvance hs
  · obtain ⟨rfl, hc₁⟩ := advance_ok hc hk hne h₁
    obtain ⟨vs, rest, rfl, hQ⟩ := h hc₁ h₂ hs
    exact ⟨u :: vs, rest, rfl, hQ⟩

/-- The current token is blamed. -/
theorem blames_unexpected {site : Site} {expected : Option Expected} (hQ : Q []) :
    Blames (unexpected site expected : Rule α) ts Q := by
  intro c d e t hc hrun ht
  cases hrun
  cases ht
  exact ⟨[], c.rest, hc.2.symm, hQ⟩

theorem blames_consume {site : Site} {k : Kind} (hQ : Q []) :
    Blames (Rule.consume site k) ts Q := by
  refine Blames.look fun t us j heq hj => ?_
  split
  · exact quiet_advance.blames
  · exact blames_unexpected hQ

theorem Blames.consume {f : Token → Rule β} {site : Site} {k : Kind} (hne : k ≠ .eof) (hQ : Q [])
    (h : ∀ t us, t.kind? = some k → Blames (f t) us fun vs => Q (t :: vs)) :
    Blames (consume site k >>= f) ts Q := by
  intro c d e s hc hrun hs
  rcases bind_error hrun with hconsume | ⟨u, c₁, h₁, h₂⟩
  · exact blames_consume hQ hc hconsume hs
  · obtain ⟨us, rfl, hk, hc₁⟩ := consume_ok hc hne h₁
    obtain ⟨vs, rest, rfl, hQ⟩ := h u us hk hc₁ h₂ hs
    exact ⟨u :: vs, rest, rfl, hQ⟩

theorem Blames.accept {f : Bool → Rule β} {k : Kind} (hne : k ≠ .eof)
    (hyes : ∀ t us, ts = t :: us → t.kind? = some k → Blames (f true) us fun vs => Q (t :: vs))
    (hno : (∃ t us j, ts = t :: us ∧ t.kind? = some j ∧ j ≠ k) → Blames (f false) ts Q) :
    Blames (accept k >>= f) ts Q := by
  intro c d e s hc hrun hs
  rcases bind_error hrun with haccept | ⟨b, c₁, h₁, h₂⟩
  · exact (quiet_accept k).blames hc haccept hs
  · rcases accept_ok hc hne h₁ with ⟨rfl, t, us, rfl, hk, hc₁⟩ | ⟨rfl, rfl, hother⟩
    · obtain ⟨vs, rest, rfl, hQ⟩ := hyes t us rfl hk hc₁ h₂ hs
      exact ⟨t :: vs, rest, rfl, hQ⟩
    · exact hno hother hc h₂ hs

/-- A part and the token that closes it: whatever has been seen of the part, `Q` holds of it. -/
theorem Blames.closed {r : Rule α} {f : α → β} {P : Phrase α} {site : Site} {k : Kind}
    (hr : Blames r ts (Started P)) (hsound : Sound r P)
    (hQ : ∀ us vs a, P (us ++ vs) a → Q us) :
    Blames (r >>= fun a => Rule.consume site k >>= fun _ => pure (f a)) ts Q := by
  refine Blames.bind (hr.mono fun us hus => ?_) hsound fun us rest a ha => ?_
  · obtain ⟨vs, a, ha⟩ := hus
    exact hQ us vs a ha
  · refine Blames.bindQuiet (blames_consume (hQ _ [] a ?_)) fun _ => quiet_pure _
    simpa using ha

/-! ## Optional parts and lists -/

theorem after_blames {k : Kind} {r : Rule α} {P : Phrase α} (hne : k ≠ .eof)
    (hr : ∀ ts, Blames r ts (Started P)) : Blames (after k r) ts (Started (Phrase.After k P)) := by
  refine Blames.accept hne (fun t us _ hk => ?_) fun _ => blames_pure _
  refine Blames.bindQuiet ((hr us).mono fun vs hvs => ?_) fun _ => quiet_pure _
  exact hvs.close [] fun ws a hP => ⟨some a, by simpa using Phrase.After.present hk hP⟩

theorem behind_blames {site : Site} {k : Kind} {r : Rule α} {P : Phrase α} (hne : k ≠ .eof)
    (hnil : Started (Phrase.Behind k P) []) (hr : ∀ ts, Blames r ts (Started P)) :
    Blames (consume site k >>= fun _ => r) ts (Started (Phrase.Behind k P)) := by
  refine Blames.consume hne hnil fun t us hk => (hr us).mono fun vs hvs => ?_
  exact hvs.close [] fun ws a hP => ⟨a, by simpa using Phrase.Behind.mk hk hP⟩

/-- The items behind separators go on with a list that has begun.  Each item but the last has been
read in front of a separator, and the last one, which fails, may end in front of `last`. -/
theorem itemsAfter_blames {k : Kind} {r : Rule α} {P : Option Kind → Phrase α}
    {last : Option Kind} (hne : k ≠ .eof) (hsound : SoundBefore r P)
    (hr : ∀ ts, Blames r ts (Started (P last))) :
    ∀ (n : Nat) {ts us : List Token} {a : α}, P (Phrase.headKind ts) us a →
      Blames (itemsAfter k r n) ts fun vs =>
        Started (Phrase.SeparatedBefore k P last) (us ++ vs) := by
  intro n
  induction n with
  | zero =>
    intro ts us a _
    exact blames_pure _
  | succ n ih =>
    intro ts us a hP
    refine Blames.accept hne (fun t ts₁ heq hk => ?_) fun _ => blames_pure _
    have hbefore : P (some k) us a := by
      rw [heq] at hP
      exact hk ▸ hP
    refine Blames.bindBefore ((hr ts₁).mono fun vs hvs => ?_) hsound fun vs rest b _ hb => ?_
    · refine hvs.close [] fun ws b hb => ⟨[a, b], ?_⟩
      simpa using Phrase.SeparatedBefore.more hbefore hk (.one hb)
    · refine Blames.bindQuiet ((ih hb).mono fun ws hws => ?_) fun _ => quiet_pure _
      refine hws.close [] fun xs bs hbs => ⟨a :: bs, ?_⟩
      simpa using Phrase.SeparatedBefore.more hbefore hk hbs

theorem sepBy_blamesBefore {k : Kind} {r : Rule α} {P : Option Kind → Phrase α}
    {last : Option Kind} (hne : k ≠ .eof) (hsound : SoundBefore r P)
    (hr : ∀ ts, Blames r ts (Started (P last))) :
    Blames (sepBy k r) ts (Started (Phrase.SeparatedBefore k P last)) := by
  refine Blames.bindBefore ((hr ts).widen fun us a ha => ?_) hsound fun us rest a _ ha => ?_
  · exact ⟨[a], .one ha⟩
  · refine Blames.budget fun n => Blames.bindQuiet ?_ fun _ => quiet_pure _
    exact itemsAfter_blames hne hsound hr n ha

theorem sepBy_blames {k : Kind} {r : Rule α} {P : Phrase α} (hne : k ≠ .eof) (hsound : Sound r P)
    (hr : ∀ ts, Blames r ts (Started P)) : Blames (sepBy k r) ts (Started (Phrase.Separated k P)) := by
  have hbefore : SoundBefore r (fun _ => P) := hsound
  have hlist : Blames (sepBy k r) ts (Started (Phrase.SeparatedBefore k (fun _ => P) none)) :=
    sepBy_blamesBefore hne hbefore hr
  exact hlist.widen fun us as hus => ⟨as, hus.separated⟩

end Rule
end QueryPipeline
