import QueryPipeline.Proofs.Session.Beside

/-!
# Lists of expressions, item by item and in one go

A statement reads a list of expressions item by item, as if for each item there were a session of
its own, on the tokens from the cursor on, and the cursor then moved over as many tokens as the item
has (`Session.sliceExpressions`).  One can also open a single session in front of the list, and ask
it for the whole list.  The answers are the same, and so is the number of tokens.

Three facts come together.  A session of its own stands beside the session of the statement
(`Session.Beside`), so it reads the same item.  The tokens of the item were all looked at
(`Lockstep.passing`), so the cursor can move over them.  And whether an item that fails puts the
cursor back makes no difference to the answer (`Rule.SameReading`).

Main statement: `Session.expressions_sliced`.
-/

namespace QueryPipeline

/-! ## Steps over tokens that were seen -/

namespace Statement

open Rule

/-- To take several tokens is to move over them. -/
theorem reads_takeMany {seen rest : List Token} (hrest : rest ≠ [])
    (hkinds : ∀ t ∈ seen, ∃ k, t.kind? = some k ∧ k ≠ .eof) :
    ∃ t, Reads (takeMany seen.length) (seen ++ rest) t rest := by
  induction seen with
  | nil =>
    obtain ⟨t, us, rfl⟩ := List.exists_cons_of_ne_nil hrest
    refine ⟨t, Reads.get fun c hc => ?_⟩
    rw [hc.current]
    exact .pure t _
  | cons t seen ih =>
    obtain ⟨⟨k, hk, hne⟩, hseen⟩ := List.forall_mem_cons.1 hkinds
    have hbehind : seen ++ rest ≠ [] := List.append_ne_nil_of_right_ne_nil seen hrest
    cases seen with
    | nil => exact ⟨t, reads_advance hk hne hbehind⟩
    | cons u seen =>
      obtain ⟨last, hlast⟩ := ih hseen
      exact ⟨last, (reads_advance hk hne hbehind).bind hlast⟩

theorem reads_advanceBy {seen rest : List Token} (hrest : rest ≠ [])
    (hkinds : ∀ t ∈ seen, ∃ k, t.kind? = some k ∧ k ≠ .eof) :
    ∃ t, Reads (advanceBy seen.length) (seen ++ rest) t rest := by
  obtain ⟨t, ht⟩ := reads_takeMany hrest hkinds
  refine ⟨t, Reads.budget ?_⟩
  rw [Nat.min_eq_left (by simp)]
  exact ht

theorem advanceBy_one : advanceBy 1 = advance := by
  funext c
  show takeMany (min 1 (c.rest.length + 1)) c = advance c
  rw [Nat.min_eq_left (Nat.le_add_left 1 c.rest.length)]
  rfl

end Statement

/-! ## A comma -/

/-- Two rules that go on alike by the kind of the current token. -/
theorem Rule.look_bind_congr {α : Type} {f g : Kind → Rule α} {c : Cursor}
    (h : ∀ k, c.current.kind? = some k → f k c = g k c) : (look >>= f) c = (look >>= g) c := by
  show EStateM.bind look f c = EStateM.bind look g c
  rw [EStateM.bind, EStateM.bind]
  cases hlook : look c with
  | ok k d =>
    obtain ⟨hk, rfl⟩ := kindOf_ok (get_ok hlook)
    exact h k hk
  | error e d => rfl

/-- The kind of a token is found by its name. -/
theorem Token.ofName_name_kind {t : Token} {k : Kind} (h : t.kind? = some k) :
    Kind.ofName k.name = k := by
  rw [kind?] at h
  cases hform : t.form with
  | plain | identifier | number | string | eof =>
    rw [hform] at h
    cases h
    rfl
  | keyword =>
    rw [hform] at h
    cases h
    rw [Kind.name_ofName]
  | punctuation =>
    rw [hform] at h
    obtain ⟨m, _, rfl⟩ := Option.map_eq_some_iff.1 h
    cases m <;> rfl
  | operator =>
    rw [hform] at h
    obtain ⟨g, _, rfl⟩ := Option.map_eq_some_iff.1 h
    cases g <;> rfl

/-- To accept a comma is to ask whether there is one, and to move on if so. -/
theorem Request.accept_comma_bind {α : Type} (f : Bool → Rule α) :
    (Rule.accept (.mark .comma) >>= f) = (do
      if ← (Request.isAmong ["COMMA"]).rule then
        let _ ← (Request.advanceBy 1).rule
        f true
      else f false) := by
  funext c
  rw [Rule.accept, Request.rule, bind_assoc, bind_assoc]
  refine Rule.look_bind_congr fun k hk => ?_
  have hname : ["COMMA"].contains k.name = true ↔ k = .mark .comma := by
    constructor
    · intro hmem
      rw [← Token.ofName_name_kind hk, List.mem_singleton.1 (List.contains_iff_mem.1 hmem)]
      rfl
    · rintro rfl
      rfl
  rw [pure_bind]
  by_cases hcomma : k = .mark .comma
  · rw [if_pos hcomma, if_pos (hname.2 hcomma), bind_assoc]
    show _ = (Statement.advanceBy 1 >>= fun _ => f true) c
    rw [Statement.advanceBy_one]
    rfl
  · rw [if_neg hcomma, if_neg (mt hname.1 hcomma), pure_bind]

/-! ## Items that fail in different places -/

namespace Rule

variable {α : Type}

/-- Two rules have read the same and are at the same place, or both have failed for the same reason.
Where they were then does not matter. -/
inductive SameReading :
    EStateM.Result ParseError Cursor α → EStateM.Result ParseError Cursor α → Prop
  | ok (a : α) (c : Cursor) : SameReading (.ok a c) (.ok a c)
  | error (e : ParseError) (c d : Cursor) : SameReading (.error e c) (.error e d)

theorem SameReading.refl (r : EStateM.Result ParseError Cursor α) : SameReading r r := by
  cases r with
  | ok a c => exact .ok a c
  | error e c => exact .error e c c

theorem SameReading.bind {β : Type} {x y : Rule α} {f g : α → Rule β} {c : Cursor}
    (h : SameReading (x c) (y c)) (hf : ∀ a d, x c = .ok a d → SameReading (f a d) (g a d)) :
    SameReading ((x >>= f) c) ((y >>= g) c) := by
  show SameReading (EStateM.bind x f c) (EStateM.bind y g c)
  rw [EStateM.bind, EStateM.bind]
  generalize y c = r at h
  cases hx : x c with
  | ok a d =>
    rw [hx] at h
    cases h
    exact hf a d hx
  | error e d =>
    rw [hx] at h
    cases h
    exact .error e _ _

section Lists

variable {x y : Rule α} (hx : ∀ c, (Lockstep.forward c).Keeps x)
include hx

/-- The bound of the loop is not reached: it stops where there is no separator. -/
theorem itemsAfter_stops {separator : Kind} (hne : separator ≠ .eof) (n : Nat) {c d : Cursor}
    {as : List α} (hc : c.Bounded) (hn : c.rest.length < n)
    (hok : itemsAfter separator x n c = .ok as d) : d.current.kind? ≠ some separator := by
  induction n generalizing c d as with
  | zero => cases hn
  | succ n ih =>
    obtain ⟨b, c₁, haccept, hrest⟩ := bind_ok hok
    obtain ⟨hc₁, _⟩ := (Lockstep.keeps_accept separator).goes hc haccept
    have hat : c.At (c.current :: c.rest) := ⟨hc.overrun, rfl⟩
    obtain ⟨rfl, _, _, ⟨⟩, _, hat₁⟩ | ⟨rfl, rfl, _, _, j, ⟨⟩, hj, hjk⟩ := accept_ok hat hne haccept
    · obtain ⟨a, c₂, ha, hmore⟩ := bind_ok hrest
      obtain ⟨hc₂, hleads⟩ := (hx c₁).goes hc₁ ha
      obtain ⟨more, c₃, hmore, hend⟩ := bind_ok hmore
      obtain ⟨_, rfl⟩ := pure_ok hend
      -- a separator has been taken, so there is less left
      have hless := congrArg List.length hat₁.2
      rw [List.length_cons] at hless
      have hle := hleads.length
      exact ih hc₂ (by omega) hmore
    · obtain ⟨_, rfl⟩ := pure_ok hrest
      rw [hj]
      exact fun heq => hjk (Option.some.inj heq)

theorem sepBy_stops {separator : Kind} (hne : separator ≠ .eof) {c d : Cursor} {as : List α}
    (hc : c.Bounded) (hok : sepBy separator x c = .ok as d) :
    d.current.kind? ≠ some separator := by
  obtain ⟨a, c₁, ha, hrest⟩ := bind_ok hok
  obtain ⟨n, c₂, hbudget, hrest⟩ := bind_ok hrest
  cases hbudget
  obtain ⟨more, c₃, hmore, hend⟩ := bind_ok hrest
  obtain ⟨_, rfl⟩ := pure_ok hend
  exact itemsAfter_stops hx hne _ ((hx c).goes hc ha).1 (Nat.lt_succ_self _) hmore

variable (h : ∀ c : Cursor, c.Bounded → SameReading (x c) (y c))
include h

/-- Items are read alike behind separators, if they are read alike where they are. -/
theorem sameReading_itemsAfter (separator : Kind) (n : Nat) {c : Cursor} (hc : c.Bounded) :
    SameReading (itemsAfter separator x n c) (itemsAfter separator y n c) := by
  induction n generalizing c with
  | zero => exact .refl _
  | succ n ih =>
    refine (SameReading.refl (accept separator c)).bind fun b d hd => ?_
    obtain ⟨hbounded, _⟩ := (Lockstep.keeps_accept separator).goes hc hd
    split
    · refine (h d hbounded).bind fun a d' hd' => ?_
      exact (ih ((hx d).goes hbounded hd').1).bind fun _ _ _ => .refl _
    · exact .refl _

theorem sameReading_sepBy (separator : Kind) {c : Cursor} (hc : c.Bounded) :
    SameReading (sepBy separator x c) (sepBy separator y c) := by
  refine (h c hc).bind fun a d hd => (SameReading.refl _).bind fun n d' hd' => ?_
  cases hd'
  refine (sameReading_itemsAfter hx h separator _ ((hx c).goes hc hd).1).bind fun _ _ _ => ?_
  exact .refl _

end Lists

end Rule

namespace Statement

open Rule

/-- A list of expressions of a statement is one of expressions. -/
theorem sameReading_expressions {c : Cursor} (hc : c.Bounded) :
    SameReading (Statement.expressions c) (Expr.expressions Expr.expression c) := by
  refine sameReading_sepBy (fun _ => Statement.keeps_expression) (fun c hc => ?_) _ hc
  rw [Statement.expression, if_pos hc.overrun]
  cases Expr.expression c with
  | ok e d => exact .ok e d
  | error e d => exact .error e c d

end Statement

namespace Session

variable {α : Type} {tokens : List Token} {start : Nat} {s t : Session} {k : Nat}

open Dialogue

/-! ## Expressions one by one -/

/-- An expression, read in a session of its own on the tokens from the cursor on.  Then the cursor
moves over as many tokens. -/
def sliceExpression : Dialogue Expr := do
  let s ← get
  let alone ← ofExpression (s.tokens.drop s.pos.toNat)
  let read ← (Call.run .parse alone).1
  let _ ← ask (.request (.advanceBy read.1))
  return read.2

/-- Expressions behind commas, each in a session of its own. -/
def sliceItems : Nat → Dialogue (List Expr)
  | 0 => pure []
  | n + 1 => do
    if ← ask (.request (.isAmong ["COMMA"])) then
      let _ ← ask (.request (.advanceBy 1))
      let e ← sliceExpression
      let es ← sliceItems n
      return e :: es
    else return []

/-- The number of tokens from the cursor on. -/
def remaining : Dialogue Nat := do
  let s ← get
  return (s.tokens.drop s.pos.toNat).length

/-- Expressions with commas between, each in a session of its own.  Each has a token at least, so
there are not more of them than tokens. -/
def sliceExpressions : Dialogue (List Expr) := do
  let e ← sliceExpression
  let es ← sliceItems (← remaining)
  return e :: es

theorem outcome_sliceExpression_ok {alone next : Session} {count : Int} {e : Expr} {u : Token}
    (halone : ofExpression (s.tokens.drop s.pos.toNat) = .ok alone)
    (hparse : (Call.run .parse alone).1 = .ok (count, e))
    (hmove : (Call.request (.advanceBy count)).run s = (.ok u, next)) :
    sliceExpression.outcome s = (.ok e, next) := by
  rw [sliceExpression, outcome_get, outcome_lift_ok halone, outcome_lift_ok hparse]
  exact outcome_bind_ok hmove

theorem outcome_sliceExpression_error {alone : Session} {e : ParseError}
    (halone : ofExpression (s.tokens.drop s.pos.toNat) = .ok alone)
    (hparse : (Call.run .parse alone).1 = .error e) :
    sliceExpression.outcome s = (.error e, s) := by
  rw [sliceExpression, outcome_get, outcome_lift_ok halone, outcome_lift_error hparse]

/-- A session of its own reads the expression and counts its tokens. -/
theorem Placed.slice_ok (h : s.Placed) {e : Expr} {c : Cursor}
    (hrun : Expr.expression s.cursor = .ok e c) :
    ∃ d, sliceExpression.outcome s = (.ok e, s.moveTo d) ∧ Lockstep.sameTokens.Cursors d c := by
  obtain ⟨alone, halone, hpos, hbeside⟩ := h.beside_alone
  have hsame := Expr.keeps_expression s.cursor alone.cursor hbeside.cursors
  rw [Lockstep.AgreeAt, hrun] at hsame
  obtain ⟨_, d, hd, rfl, hcd⟩ := hsame.of_ok
  have hplaced := hbeside.placed.apply Expr.keeps_expression
  rw [apply_ok hd] at hplaced
  have hoverrun : d.overrun = 0 := hplaced.bounded.overrun
  -- the place in the other session is the number of tokens that were passed in this one
  obtain ⟨seen, hseen, hkinds⟩ := Expr.keeps_expression.passes hrun
  have hcount : (alone.moveTo d).pos = seen.length := by
    have hlength := congrArg List.length hseen
    simp only [List.length_cons, List.length_append] at hlength
    rw [pos_moveTo hbeside.placed.bounded.overrun hoverrun, hpos, ← hbeside.cursors.2.1,
      ← hcd.2.1]
    omega
  obtain ⟨u, hu⟩ := Statement.reads_advanceBy (List.cons_ne_nil c.current c.rest) hkinds
  obtain ⟨c', hc', hat⟩ := hu s.cursor ⟨h.bounded.overrun, hseen⟩
  have hparse := congrArg Prod.fst (run_parse_ok hd)
  rw [hcount] at hparse
  refine ⟨c', outcome_sliceExpression_ok halone hparse (apply_ok hc'), ?_⟩
  exact ⟨hat.current, hat.rest, hat.1.trans (hcd.2.2.trans hoverrun).symm⟩

theorem Placed.slice_error (h : s.Placed) {e : ParseError} {c : Cursor}
    (hrun : Expr.expression s.cursor = .error e c) : sliceExpression.outcome s = (.error e, s) := by
  obtain ⟨alone, halone, _, hbeside⟩ := h.beside_alone
  have hsame := Expr.keeps_expression s.cursor alone.cursor hbeside.cursors
  rw [Lockstep.AgreeAt, hrun] at hsame
  obtain ⟨_, d, hd, rfl, _⟩ := hsame.of_error
  exact outcome_sliceExpression_error halone (congrArg Prod.fst (run_parse_error hd))

/-- An expression of a statement is read as in a session of its own. -/
theorem agree_sliceExpression : Agree 0 sliceExpression (ofRule Statement.expression) := by
  intro s t hst
  have hread := Expr.keeps_expression s.cursor t.cursor hst.cursors
  have hoverrun := hst.placed.bounded.overrun
  rw [Lockstep.AgreeAt] at hread
  cases hrun : Expr.expression s.cursor with
  | ok e c =>
    -- the cursor that has moved over the tokens may lack notes, hence it is not `c` itself
    rw [hrun] at hread
    obtain ⟨_, d, hd, rfl, hcd⟩ := hread.of_ok
    obtain ⟨c', hslice, hc'⟩ := hst.left.slice_ok hrun
    have hplaced := hst.placed.apply Statement.keeps_expression
    rw [apply_expression_ok hoverrun hd] at hplaced
    rw [hslice, outcome_ofRule, apply_expression_ok hoverrun hd]
    exact ⟨rfl, hst.moveTo ⟨hc'.1.trans hcd.1, hc'.2.1.trans hcd.2.1, hc'.2.2.trans hcd.2.2⟩
      hplaced⟩
  | error e c =>
    rw [hrun] at hread
    obtain ⟨_, d, hd, rfl, _⟩ := hread.of_error
    rw [hst.left.slice_error hrun, outcome_ofRule, apply_expression_error hoverrun hd]
    exact ⟨rfl, hst⟩

theorem agree_sliceItems (n : Nat) :
    Agree 0 (sliceItems n) (ofRule (Rule.itemsAfter (.mark .comma) Statement.expression n)) := by
  induction n with
  | zero =>
    rw [Rule.itemsAfter, ofRule_pure]
    exact agree_pure []
  | succ n ih =>
    rw [Rule.itemsAfter, Request.accept_comma_bind, ofRule_bind]
    refine (agree_request (.isAmong ["COMMA"])).bind fun b => ?_
    cases b with
    | false =>
      simp only [Bool.false_eq_true, if_false, ofRule_pure]
      exact agree_pure []
    | true =>
      simp only [if_true, ofRule_bind, ofRule_pure]
      refine (agree_request (.advanceBy 1)).bind fun _ => agree_sliceExpression.bind fun e => ?_
      exact ih.bind fun es => agree_pure (e :: es)

theorem agree_remaining : Agree k remaining (ofRule Rule.budget) := by
  intro s t hst
  have hbudget : (ofRule Rule.budget).outcome t = (.ok (t.cursor.rest.length + 1), t) :=
    (outcome_ofRule_ok rfl).trans (by rw [moveTo_self])
  rw [remaining, outcome_get, hbudget, hst.left.drop_pos, hst.cursors.2.1]
  exact ⟨rfl, hst⟩

/-- **A list of expressions is read as item after item**, each in a session of its own. -/
theorem agree_sliceExpressions : Agree 0 sliceExpressions (ofRule Statement.expressions) := by
  rw [Statement.expressions, Rule.sepBy]
  simp only [ofRule_bind, ofRule_pure]
  refine agree_sliceExpression.bind fun e => agree_remaining.bind fun n => ?_
  exact (agree_sliceItems n).bind fun es => agree_pure (e :: es)

/-! ## Expressions in one go -/

theorem apply_of_sameReading {x y : Rule α} (h : Rule.SameReading (x s.cursor) (y s.cursor)) :
    (s.apply x).1 = (s.apply y).1 ∧ ∀ a, (s.apply x).1 = .ok a → (s.apply x).2 = (s.apply y).2 := by
  rw [apply, apply]
  generalize x s.cursor = r, y s.cursor = r' at h
  cases h with
  | ok a c => exact ⟨rfl, fun _ _ => rfl⟩
  | error e c d =>
    refine ⟨rfl, fun a ha => ?_⟩
    cases ha

/-- A list of expressions, item by item in the middle of a session, and in one go in a session of
its own: the same expressions and the same number of tokens, or the same error about the same
token. -/
structure ReadsExpressions (s alone : Session) : Prop where
  sliced : (sliceExpressions.outcome s).1 = ((Call.request (.expressions .statement)).run s).1
  slicedPlace : (sliceExpressions.outcome s).2.pos =
    ((Call.request (.expressions .statement)).run s).2.pos
  answer : ((Call.request (.expressions .statement)).run s).1 =
    ((Call.request (.expressions .expression)).run alone).1
  count : ∀ es, ((Call.request (.expressions .statement)).run s).1 = .ok es →
    ((Call.request (.expressions .statement)).run s).2.pos - s.pos =
      ((Call.request (.expressions .expression)).run alone).2.pos - alone.pos
  /-- All items have been read. -/
  stops : ∀ es, ((Call.request (.expressions .statement)).run s).1 = .ok es →
    ((Call.request (.expressions .statement)).run s).2.cursor.current.kind? ≠ some (.mark .comma)

theorem Placed.expressions_stop (h : s.Placed) {es : List Expr}
    (hok : (s.apply Statement.expressions).1 = .ok es) :
    (s.apply Statement.expressions).2.cursor.current.kind? ≠ some (.mark .comma) := by
  cases hrun : Statement.expressions s.cursor with
  | ok es' c =>
    rw [apply_ok hrun]
    exact Rule.sepBy_stops (fun _ => Statement.keeps_expression) (by decide) h.bounded hrun
  | error e c =>
    rw [apply_error hrun] at hok
    cases hok

theorem Beside.readsExpressions (h : Beside k s t) : ReadsExpressions s t := by
  have hleft := h.left
  obtain ⟨hsliced, hplace⟩ := agree_sliceExpressions s s hleft.beside_self
  obtain ⟨hanswer, hnext⟩ := agree_request (.expressions .statement) s t h
  obtain ⟨hone, hstop⟩ := apply_of_sameReading
    (Statement.sameReading_expressions h.placed.bounded)
  refine ⟨hsliced, hplace.pos_eq.trans (Int.add_zero _), hanswer.trans hone, fun es hes => ?_,
    fun es hes => hleft.expressions_stop hes⟩
  have hpos : (s.apply Statement.expressions).2.pos =
      (t.apply (Expr.expressions Expr.expression)).2.pos + k := by
    rw [← hstop es (hanswer.symm.trans hes)]
    exact hnext.pos_eq
  show (s.apply Statement.expressions).2.pos - s.pos = _
  rw [hpos, h.pos_eq, Int.add_sub_add_right]
  rfl

/-- **Where expressions are read does not matter.**  Let a session be at place `k` of tokens of
which the last is the end, at its start or after any calls, and let another one start on the tokens
from `k` on.  Then a list of expressions that the one reads item by item is the list that the other
reads in one go, and whatever one asks of both from there on has the same answer. -/
theorem expressions_sliced (tokens : List Token) (start : Nat) {last : Token}
    (hlast : tokens.getLast? = some last) (heof : last.kind? = some .eof)
    (hstart : start < tokens.length) :
    ∃ s₀, ofTokens tokens start = .ok s₀ ∧ (start = 0 → ofExpression tokens = .ok s₀) ∧
      s₀.pos = start ∧ ∀ earlier : List (Σ α : Type, Call α),
        ∃ (k : Nat) (alone : Session), (s₀.after earlier).pos = k ∧
          ofExpression (tokens.drop k) = .ok alone ∧ alone.pos = 0 ∧
          ReadsExpressions (s₀.after earlier) alone ∧
          (s₀.after earlier).ahead 1 = .ok (s₀.after earlier).cursor.next ∧
          ∀ (calls : List (Σ α : Type, Call α)) (α : Type) (call : Call α),
            call.Mirrored k ((s₀.after earlier).after calls) (alone.after calls) := by
  obtain ⟨s₀, hs₀, hzero, hpos, hfollows⟩ := exists_follows hlast heof hstart
  refine ⟨s₀, hs₀, hzero, hpos, fun earlier => ?_⟩
  have hearlier := hfollows.after earlier
  have hplaced := hearlier.placed
  obtain ⟨alone, halone, hzeroPos, hbeside⟩ := hplaced.beside_alone
  rw [hearlier.tokens_eq] at halone
  refine ⟨_, alone, (Int.toNat_of_nonneg hplaced.pos_nonneg).symm, halone, hzeroPos,
    hbeside.readsExpressions, hplaced.ahead_one, ?_⟩
  exact fun calls α call => (hbeside.after calls).mirrored call

/-- At the end of the tokens, `NOT` has no `IN` behind it. -/
theorem expressions_sliced_not :
    let tokens : List Token :=
      [⟨.keyword, "by", 0⟩, ⟨.identifier, "a", 3⟩, ⟨.keyword, "not", 5⟩, ⟨.keyword, "in", 9⟩,
       ⟨.punctuation, "(", 12⟩, ⟨.number, "1", 13⟩, ⟨.punctuation, ")", 14⟩,
       ⟨.punctuation, ",", 15⟩, ⟨.identifier, "b", 17⟩, ⟨.keyword, "not", 19⟩, ⟨.eof, "", 22⟩]
    let es : List Expr :=
      [.membership (.column ⟨"a", none, none⟩) [.literal (.number "1")] true,
       .column ⟨"b", none, none⟩]
    ∃ s alone, ofTokens tokens 1 = .ok s ∧ ofExpression (tokens.drop 1) = .ok alone ∧
      ReadsExpressions s alone ∧
      ((Call.request (.expressions .expression)).run alone).1 = .ok es ∧
      ((Call.request (.expressions .expression)).run alone).2.pos = 8 ∧
      ((Call.request (.expressions .statement)).run s).1 = .ok es ∧
      ((Call.request (.expressions .statement)).run s).2.pos = 9 := by
  intro tokens es
  obtain ⟨s, hs, _, hpos, hearlier⟩ := expressions_sliced tokens 1 rfl rfl (by decide)
  obtain ⟨k, alone, hk, halone, hzero, hreads, _⟩ := hearlier []
  obtain rfl : k = 1 := Int.ofNat.inj (hk.symm.trans hpos)
  have hread : ((Call.request (.expressions .expression)).run alone).1 = .ok es := by
    cases halone
    rfl
  have hplace : ((Call.request (.expressions .expression)).run alone).2.pos = 8 := by
    cases halone
    rfl
  have hanswer := hreads.answer.trans hread
  have hcount := hreads.count es hanswer
  refine ⟨s, alone, hs, halone, hreads, hread, hplace, hanswer, ?_⟩
  rw [hplace, hzero] at hcount
  rw [show s.after [] = s from rfl, hpos] at hcount
  omega

end Session
end QueryPipeline
