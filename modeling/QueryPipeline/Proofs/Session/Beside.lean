import QueryPipeline.Proofs.Session

/-!
# Sessions side by side

A session on some tokens, and a session on these tokens without the first `k`: if both cursors are
at the same token, then it does not matter which of them one asks.  `Session.Beside k s t` says that
they are so, and every call has the same answer in both and leaves them so (`Beside.answer`,
`Beside.run`); only the places are `k` further on in the first one.  So nothing depends on the
tokens in front of the cursor, on what was asked before, or on which part of the tokens a session
has.

`Dialogue` is for several calls one after the other, and `Dialogue.Agree` compares two dialogues in
sessions side by side.  A rule is a dialogue too, and can be taken apart (`Dialogue.ofRule_bind`).
-/

namespace QueryPipeline

/-- A place among the tokens from place `k` on is `k` further on among all of them, also behind the
last one. -/
theorem tokenAt?_drop {tokens : List Token} {k : Nat} (hk : k < tokens.length) {place : Int}
    (hplace : 0 ≤ place) : tokenAt? (tokens.drop k) place = tokenAt? tokens (place + k) := by
  rw [tokenAt?, tokenAt?, if_neg (by omega), if_neg (by omega), List.getElem?_drop,
    List.getLast?_drop, if_neg (by omega), show (place + k).toNat = k + place.toNat by omega]

/-- Cursors with the same tokens have the same end. -/
theorem Cursor.Bounded.same {c d : Cursor} (h : d.Bounded)
    (hcd : Lockstep.sameTokens.Cursors c d) : c.Bounded := by
  obtain ⟨ts, last, hat, heof⟩ := h
  obtain ⟨hcurrent, hrest, hoverrun⟩ := hcd
  exact ⟨ts, last, ⟨hoverrun.trans hat.1, by rw [hcurrent, hrest, hat.2]⟩, heof⟩

namespace Session

variable {α β : Type} {tokens : List Token} {start : Nat} {s t : Session} {k : Nat}

/-! ## Sessions in their place -/

/-- The cursor is where the session says, and the last of the tokens is the end. -/
def Placed (s : Session) : Prop :=
  Follows s.tokens s.pos.toNat s

theorem placed_of_drop (hnonneg : 0 ≤ s.pos) (hbounded : s.cursor.Bounded)
    (hdrop : s.tokens.drop s.pos.toNat = s.cursor.current :: s.cursor.rest) : s.Placed := by
  refine ⟨rfl, hbounded, [], hdrop, ?_, nofun⟩
  rw [List.length_nil, Int.natCast_zero, Int.add_zero, Int.toNat_of_nonneg hnonneg]

theorem Follows.placed (h : Follows tokens start s) : s.Placed := by
  have hdrop := h.drop_pos
  rw [← h.tokens_eq] at hdrop
  exact placed_of_drop h.inPlace.nonneg h.bounded hdrop

namespace Placed

theorem apply (h : s.Placed) {rule : Rule α} (hrule : (Lockstep.forward s.cursor).Keeps rule) :
    (s.apply rule).2.Placed :=
  (Follows.apply h hrule).1.placed

theorem pos_nonneg (h : s.Placed) : 0 ≤ s.pos :=
  h.inPlace.nonneg

theorem pos_lt (h : s.Placed) : s.pos.toNat < s.tokens.length := by
  have hlt := h.inPlace.lt_length
  have hnonneg := h.pos_nonneg
  omega

/-- What the rules see behind the current token is what a look at the next place gives, also at the
end. -/
theorem ahead_one (h : s.Placed) : s.ahead 1 = .ok s.cursor.next := by
  have hplace : tokenAt? s.tokens (s.pos + 1) =
      tokenAt? (s.cursor.current :: s.cursor.rest) 1 := by
    rw [← h.drop_pos, tokenAt?_drop h.pos_lt (by decide), Int.toNat_of_nonneg h.pos_nonneg,
      Int.add_comm]
  rw [ahead, hplace, Cursor.next]
  cases s.cursor.rest with
  | nil => rfl
  | cons u us => rfl

end Placed

/-! ## Side by side -/

/-- The second session is on the tokens of the first one from place `k` on, and both cursors are at
the same token. -/
structure Beside (k : Nat) (s t : Session) : Prop where
  tokens_eq : t.tokens = s.tokens.drop k
  pos_eq : s.pos = t.pos + k
  cursors : Lockstep.sameTokens.Cursors s.cursor t.cursor
  placed : t.Placed

theorem Placed.beside_self (h : s.Placed) : Beside 0 s s :=
  ⟨rfl, (Int.add_zero s.pos).symm, ⟨rfl, rfl, rfl⟩, h⟩

/-- Every session is beside a new one that starts where it is. -/
theorem Placed.beside_alone (h : s.Placed) :
    ∃ alone, ofExpression (s.tokens.drop s.pos.toNat) = .ok alone ∧ alone.pos = 0 ∧
      Beside s.pos.toNat s alone := by
  have hdrop := h.drop_pos
  have hcursors : Lockstep.sameTokens.Cursors (.start s.cursor.current s.cursor.rest) s.cursor :=
    ⟨rfl, rfl, h.bounded.overrun.symm⟩
  refine ⟨⟨_, 0, .start s.cursor.current s.cursor.rest⟩, by rw [hdrop]; rfl, rfl, ?_⟩
  refine ⟨hdrop.symm, ?_, ⟨rfl, rfl, h.bounded.overrun⟩, ?_⟩
  · rw [Int.zero_add, Int.toNat_of_nonneg h.pos_nonneg]
  · exact placed_of_drop (Int.le_refl 0) (h.bounded.same hcursors) rfl

namespace Beside

/-- The session on all the tokens is in its place too. -/
theorem left (h : Beside k s t) : s.Placed := by
  have hnonneg := h.placed.pos_nonneg
  have hpos := h.pos_eq
  refine placed_of_drop (by omega) (h.placed.bounded.same h.cursors) ?_
  rw [show s.pos.toNat = k + t.pos.toNat by omega, ← List.drop_drop, ← h.tokens_eq,
    h.placed.drop_pos, h.cursors.1, h.cursors.2.1]

theorem moveTo (h : Beside k s t) {c d : Cursor} (hcd : Lockstep.sameTokens.Cursors c d)
    (hplaced : (t.moveTo d).Placed) : Beside k (s.moveTo c) (t.moveTo d) := by
  refine ⟨h.tokens_eq, ?_, hcd, hplaced⟩
  obtain ⟨_, hrest, hoverrun⟩ := h.cursors
  simp only [Session.moveTo]
  rw [h.pos_eq, hrest, hoverrun, hcd.2.1, hcd.2.2]
  omega

/-- A look ahead sees the same token. -/
theorem ahead (h : Beside k s t) {offset : Int} (hoffset : 0 ≤ offset) :
    s.ahead offset = t.ahead offset := by
  have hnonneg := h.placed.pos_nonneg
  have hlt := h.placed.pos_lt
  rw [h.tokens_eq, List.length_drop] at hlt
  rw [Session.ahead, Session.ahead, h.tokens_eq, tokenAt?_drop (by omega) (by omega), h.pos_eq,
    Int.add_right_comm]

end Beside

theorem moveTo_moveTo (s : Session) (c d : Cursor) : (s.moveTo c).moveTo d = s.moveTo d := by
  simp only [Session.moveTo, Session.mk.injEq, true_and, and_true]
  omega

/-! ## Calls one after the other -/

/-- Some calls, one after the other until one fails. -/
abbrev Dialogue :=
  ExceptT ParseError (StateM Session)

/-- Ask a session for something. -/
def ask (call : Call α) : Dialogue α :=
  ExceptT.mk call.run

namespace Dialogue

/-- The answer, and the session after it. -/
def outcome (x : Dialogue α) (s : Session) : Except ParseError α × Session :=
  (x.run.run s).run

/-- The dialogue in which one rule is applied. -/
def ofRule (rule : Rule α) : Dialogue α :=
  ExceptT.mk fun s => s.apply rule

theorem outcome_ofRule (rule : Rule α) (s : Session) : (ofRule rule).outcome s = s.apply rule :=
  rfl

theorem outcome_ofRule_ok {rule : Rule α} {a : α} {c : Cursor} (h : rule s.cursor = .ok a c) :
    (ofRule rule).outcome s = (.ok a, s.moveTo c) :=
  apply_ok h

theorem outcome_ofRule_error {rule : Rule α} {e : ParseError} {c : Cursor}
    (h : rule s.cursor = .error e c) : (ofRule rule).outcome s = (.error e, s.moveTo c) :=
  apply_error h

theorem outcome_bind_ok {x : Dialogue α} {f : α → Dialogue β} {a : α}
    (h : x.outcome s = (.ok a, t)) : (x >>= f).outcome s = (f a).outcome t := by
  rw [outcome] at h
  simp only [outcome, ExceptT.run_bind, StateT.run_bind, Id.run_bind, h]

theorem outcome_bind_error {x : Dialogue α} {f : α → Dialogue β} {e : ParseError}
    (h : x.outcome s = (.error e, t)) : (x >>= f).outcome s = (.error e, t) := by
  rw [outcome] at h
  simp only [outcome, ExceptT.run_bind, StateT.run_bind, Id.run_bind, h]
  rfl

/-- To look at the session, and go on. -/
theorem outcome_get (f : Session → Dialogue α) (s : Session) :
    (get >>= f).outcome s = (f s).outcome s :=
  rfl

/-- What is known without the session does not change it. -/
theorem outcome_lift_ok {r : Except ParseError α} {f : α → Dialogue β} {a : α} (h : r = .ok a)
    (s : Session) : ((liftM r : Dialogue α) >>= f).outcome s = (f a).outcome s := by
  subst h
  rfl

theorem outcome_lift_error {r : Except ParseError α} {f : α → Dialogue β} {e : ParseError}
    (h : r = .error e) (s : Session) :
    ((liftM r : Dialogue α) >>= f).outcome s = (.error e, s) := by
  subst h
  rfl

theorem ext {x y : Dialogue α} (h : ∀ s, x.outcome s = y.outcome s) : x = y :=
  funext h

/-- A session applies a rule part by part. -/
theorem ofRule_bind (x : Rule α) (f : α → Rule β) :
    ofRule (x >>= f) = ofRule x >>= fun a => ofRule (f a) := by
  refine ext fun s => ?_
  cases hx : x s.cursor with
  | ok a c =>
    have hbind : (x >>= f) s.cursor = f a c := by
      show EStateM.bind x f s.cursor = _
      rw [EStateM.bind, hx]
    rw [outcome_bind_ok (outcome_ofRule_ok hx)]
    cases hf : f a c with
    | ok b d =>
      rw [outcome_ofRule_ok (hbind.trans hf), outcome_ofRule_ok (s := s.moveTo c) hf,
        moveTo_moveTo]
    | error e d =>
      rw [outcome_ofRule_error (hbind.trans hf), outcome_ofRule_error (s := s.moveTo c) hf,
        moveTo_moveTo]
  | error e c =>
    rw [outcome_bind_error (outcome_ofRule_error hx)]
    refine outcome_ofRule_error ?_
    show EStateM.bind x f s.cursor = _
    rw [EStateM.bind, hx]

theorem ofRule_pure (a : α) : ofRule (pure a) = pure a :=
  ext fun s => congrArg (Prod.mk _) s.moveTo_self

/-- In sessions side by side, the dialogues have the same answer, and the sessions are side by side
again. -/
def Agree (k : Nat) (x y : Dialogue α) : Prop :=
  ∀ s t, Beside k s t →
    (x.outcome s).1 = (y.outcome t).1 ∧ Beside k (x.outcome s).2 (y.outcome t).2

theorem Agree.bind {x y : Dialogue α} {f g : α → Dialogue β} (h : Agree k x y)
    (hf : ∀ a, Agree k (f a) (g a)) : Agree k (x >>= f) (y >>= g) := by
  intro s t hst
  obtain ⟨hanswer, hnext⟩ := h s t hst
  cases hx : x.outcome s with
  | mk answer s₁ =>
    cases hy : y.outcome t with
    | mk answer' t₁ =>
      rw [hx, hy] at hanswer hnext
      obtain rfl : answer = answer' := hanswer
      cases answer with
      | ok a =>
        rw [outcome_bind_ok hx, outcome_bind_ok hy]
        exact hf a s₁ t₁ hnext
      | error e =>
        rw [outcome_bind_error hx, outcome_bind_error hy]
        exact ⟨rfl, hnext⟩

theorem agree_pure (a : α) : Agree k (pure a) (pure a) :=
  fun _ _ hst => ⟨rfl, hst⟩

/-- **A rule does the same in sessions side by side**, if it does not depend on the notes and goes
forward. -/
theorem agree_ofRule {rule : Rule α} (hsame : Lockstep.sameTokens.Keeps rule)
    (hforward : ∀ c, (Lockstep.forward c).Keeps rule) : Agree k (ofRule rule) (ofRule rule) := by
  intro s t hst
  have hread := hsame s.cursor t.cursor hst.cursors
  have hplaced := hst.placed.apply (hforward t.cursor)
  rw [Lockstep.AgreeAt] at hread
  cases hrule : rule s.cursor with
  | ok a c =>
    rw [hrule] at hread
    obtain ⟨_, d, hd, rfl, hcd⟩ := hread.of_ok
    rw [apply_ok hd] at hplaced
    rw [outcome_ofRule_ok hrule, outcome_ofRule_ok hd]
    exact ⟨rfl, hst.moveTo hcd hplaced⟩
  | error e c =>
    rw [hrule] at hread
    obtain ⟨_, d, hd, rfl, hcd⟩ := hread.of_error
    rw [apply_error hd] at hplaced
    rw [outcome_ofRule_error hrule, outcome_ofRule_error hd]
    exact ⟨rfl, hst.moveTo hcd hplaced⟩

theorem agree_request (asked : Request α) :
    Agree k (ofRule asked.rule) (ofRule asked.rule) :=
  agree_ofRule (asked.keeps_rule (fun _ _ htu => htu) fun _ => trivial) asked.keeps_forward

end Dialogue

/-! ## Any calls -/

/-- An answer in terms of places that are `k` further on. -/
def Call.shift (k : Nat) : Call α → α → α
  | .request _, a => a
  | .peek _, a => a
  | .parse, read => (read.1 + k, read.2)

open Dialogue

namespace Beside

/-- After a call, the sessions are side by side again. -/
theorem run (h : Beside k s t) (call : Call α) : Beside k (call.run s).2 (call.run t).2 := by
  cases call with
  | request asked => exact (agree_request asked s t h).2
  | peek offset => exact h
  | parse => exact (agree_request (.expression .expression) s t h).2

theorem after (h : Beside k s t) (calls : List (Σ α : Type, Call α)) :
    Beside k (s.after calls) (t.after calls) := by
  induction calls generalizing s t with
  | nil => exact h
  | cons call calls ih => exact ih (h.run call.2)

theorem answer (h : Beside k s t) (call : Call α) (hahead : call.LooksAhead) :
    (call.run s).1 = (call.run t).1.map (call.shift k) := by
  cases call with
  | request asked =>
    rw [show (Call.request asked).shift k = id from rfl, Except.map_id]
    exact (agree_request asked s t h).1
  | peek offset =>
    rw [show (Call.peek offset).shift k = id from rfl, Except.map_id]
    exact h.ahead hahead
  | parse =>
    obtain ⟨hanswer, hnext⟩ := agree_request (.expression .expression) s t h
    change (s.apply Expr.expression).1 = (t.apply Expr.expression).1 at hanswer
    change Beside k (s.apply Expr.expression).2 (t.apply Expr.expression).2 at hnext
    rw [Call.run, Call.run]
    dsimp only
    rw [hanswer, hnext.pos_eq]
    cases (t.apply Expr.expression).1 with
    | ok e => rfl
    | error e => rfl

end Beside

/-- A call in sessions side by side: the answers are the same up to the places in them, if the call
does not look behind, and the cursors are at the same token after it. -/
structure Call.Mirrored (k : Nat) (s t : Session) (call : Call α) : Prop where
  answer : call.LooksAhead → (call.run s).1 = (call.run t).1.map (call.shift k)
  place : (call.run s).2.pos = (call.run t).2.pos + k
  current : (call.run s).2.cursor.current = (call.run t).2.cursor.current

theorem Beside.mirrored (h : Beside k s t) (call : Call α) : call.Mirrored k s t :=
  ⟨h.answer call, (h.run call).pos_eq, (h.run call).cursors.1⟩

end Session
end QueryPipeline
