import QueryPipeline.Proofs.Rule
import QueryPipeline.Expr.Rules

/-!
# Rules in lockstep

A rule is built from a few steps: it looks at the kind of the current token or of the one behind it,
it takes the current token, or it fails at it.  So what the steps keep, every rule keeps.

A `Lockstep` is a way to compare two runs of a rule, by a relation between cursors, one between
tokens and one between errors, for which the steps go together: they both succeed or both fail, and
the cursors are related again.  `L.Keeps r` says the same of the rule `r`, and that both runs read
the same.  There is one lemma for each way to build a rule here, and one for each rule of the
grammar in the files on top of this one; they are proved once, for all ways to compare.

An invariant of one run is the case in which both cursors are the same.
-/

namespace QueryPipeline

/-- The kinds of tokens whose text becomes part of what is read. -/
def Kind.carriesText : Kind → Bool
  | .number => true
  | .string => true
  | k => k.isName

/-- A kind that is not named by a word of the text. -/
def Kind.hasFixedName : Kind → Bool
  | .other _ => false
  | _ => true

/-- Two runs came to an end together: both have read something, or both failed. -/
inductive Together {α β : Type} (R : Cursor → Cursor → Prop) (E : ParseError → ParseError → Prop)
    (V : α → β → Prop) :
    EStateM.Result ParseError Cursor α → EStateM.Result ParseError Cursor β → Prop
  | ok {a : α} {b : β} {c d : Cursor} : V a b → R c d → Together R E V (.ok a c) (.ok b d)
  | error {e f : ParseError} {c d : Cursor} : E e f → R c d →
      Together R E V (.error e c) (.error f d)

namespace Together

variable {α β : Type} {R : Cursor → Cursor → Prop} {E : ParseError → ParseError → Prop}
  {V : α → β → Prop} {c : Cursor} {s : EStateM.Result ParseError Cursor β}

theorem of_ok {a : α} (h : Together R E V (.ok a c) s) : ∃ b d, s = .ok b d ∧ V a b ∧ R c d := by
  cases h with
  | ok hab hcd => exact ⟨_, _, rfl, hab, hcd⟩

theorem of_error {e : ParseError} (h : Together R E V (.error e c) s) :
    ∃ f d, s = .error f d ∧ E e f ∧ R c d := by
  cases h with
  | error hef hcd => exact ⟨_, _, rfl, hef, hcd⟩

theorem mono {W : α → β → Prop} {r : EStateM.Result ParseError Cursor α} (h : Together R E V r s)
    (hVW : ∀ a b, V a b → W a b) : Together R E W r s := by
  cases h with
  | ok hab hcd => exact .ok (hVW _ _ hab) hcd
  | error hef hcd => exact .error hef hcd

end Together

/-- **A way to compare two runs**, with what it takes for the steps of all rules to go together. -/
structure Lockstep where
  Cursors : Cursor → Cursor → Prop
  Tokens : Token → Token → Prop
  Errors : ParseError → ParseError → Prop
  /-- What an error may ask for. -/
  Asks : Expected → Prop
  current {c d : Cursor} : Cursors c d → Tokens c.current d.current
  next {c d : Cursor} : Cursors c d → Tokens c.next d.next
  length {c d : Cursor} : Cursors c d → c.rest.length = d.rest.length
  kind {t u : Token} : Tokens t u → t.kind? = u.kind?
  text {t u : Token} {k : Kind} : Tokens t u → t.kind? = some k → k.carriesText = true →
    t.text = u.text
  step {c d : Cursor} {k : Kind} : Cursors c d → c.current.kind? = some k → k ≠ .eof →
    Together Cursors Errors Eq (Rule.step c) (Rule.step d)
  note {c d : Cursor} (notes : List Note) : Cursors c d →
    Cursors { c with notes := c.notes ++ notes } { d with notes := d.notes ++ notes }
  overrun {c d : Cursor} : Cursors c d → c.overrun = d.overrun
  noTokens {c d : Cursor} : Cursors c d → c.overrun ≠ 0 → Errors .noTokens .noTokens
  unknownSymbol {t u : Token} : Tokens t u → t.kind? = none →
    Errors (.unknownSymbol t.text) (.unknownSymbol u.text)
  unexpected {t u : Token} (site : Site) {expected : Option Expected} : Tokens t u →
    (∀ x ∈ expected, Asks x) → Errors (.unexpected site t expected) (.unexpected site u expected)
  statementStart {t u : Token} : Tokens t u → Errors (.statementStart t) (.statementStart u)
  emptyQuery : Errors .emptyQuery .emptyQuery
  integer {c d : Cursor} {e : IntegerError} : Cursors c d → c.current.kind? = some .number →
    '.' ∉ c.current.text.toList → Integer.read c.current.text = .error e →
    Errors (.integer e) (.integer e)
  asksKind {k : Kind} : k.hasFixedName = true → Asks (.kind k)
  asksInteger : Asks .integer

namespace Lockstep

variable {α β α' β' : Type} (L : Lockstep)

/-- The two rules come to an end together, from two cursors, with related results. -/
def AgreeAt (V : α → β → Prop) (x : Rule α) (y : Rule β) (c d : Cursor) : Prop :=
  Together L.Cursors L.Errors V (x c) (y d)

def Agree (V : α → β → Prop) (x : Rule α) (y : Rule β) : Prop :=
  ∀ c d, L.Cursors c d → L.AgreeAt V x y c d

/-- From related cursors, the rule reads the same. -/
def Keeps (x : Rule α) : Prop :=
  L.Agree Eq x x

variable {L}

/-! ## Sequences -/

theorem AgreeAt.bind {V : α → β → Prop} {W : α' → β' → Prop} {x : Rule α} {y : Rule β}
    {f : α → Rule α'} {g : β → Rule β'} {c d : Cursor} (h : L.AgreeAt V x y c d)
    (hf : ∀ a b, V a b → L.Agree W (f a) (g b)) : L.AgreeAt W (x >>= f) (y >>= g) c d := by
  show Together L.Cursors L.Errors W (EStateM.bind x f c) (EStateM.bind y g d)
  rw [AgreeAt] at h
  rw [EStateM.bind, EStateM.bind]
  cases hx : x c with
  | ok a c₁ =>
    rw [hx] at h
    obtain ⟨b, d₁, hy, hab, hcd⟩ := h.of_ok
    rw [hy]
    exact hf a b hab c₁ d₁ hcd
  | error e c₁ =>
    rw [hx] at h
    obtain ⟨_, _, hy, hef, hcd⟩ := h.of_error
    rw [hy]
    exact .error hef hcd

theorem Agree.bind {V : α → β → Prop} {W : α' → β' → Prop} {x : Rule α} {y : Rule β}
    {f : α → Rule α'} {g : β → Rule β'} (h : L.Agree V x y)
    (hf : ∀ a b, V a b → L.Agree W (f a) (g b)) : L.Agree W (x >>= f) (y >>= g) :=
  fun c d hcd => (h c d hcd).bind hf

theorem Agree.mono {V W : α → β → Prop} {x : Rule α} {y : Rule β} (h : L.Agree V x y)
    (hVW : ∀ a b, V a b → W a b) : L.Agree W x y :=
  fun c d hcd => (h c d hcd).mono hVW

theorem Keeps.bind {x : Rule α} {f : α → Rule β} (h : L.Keeps x) (hf : ∀ a, L.Keeps (f a)) :
    L.Keeps (x >>= f) := by
  refine Agree.bind h ?_
  rintro a _ rfl
  exact hf a

theorem agree_pure {V : α → β → Prop} {a : α} {b : β} (h : V a b) :
    L.Agree V (pure a) (pure b) :=
  fun _ _ hcd => .ok h hcd

theorem keeps_pure (a : α) : L.Keeps (pure a) :=
  agree_pure rfl

theorem Keeps.map {x : Rule α} (h : L.Keeps x) (f : α → β) : L.Keeps (f <$> x) := by
  rw [map_eq_pure_bind]
  exact h.bind fun a => keeps_pure (f a)

/-- A rule that first looks at the cursor. -/
theorem agree_get {W : α → β → Prop} {f : Cursor → Rule α} {g : Cursor → Rule β}
    (h : ∀ c d, L.Cursors c d → L.AgreeAt W (f c) (g d) c d) :
    L.Agree W (get >>= f) (get >>= g) :=
  h

/-! ## Looking -/

/-- Behind a look at a token, its kind is known. -/
theorem agreeAt_kindOf {W : α → β → Prop} {f : Kind → Rule α} {g : Kind → Rule β} {t u : Token}
    {c d : Cursor} (htu : L.Tokens t u) (hcd : L.Cursors c d)
    (h : ∀ k, t.kind? = some k → L.AgreeAt W (f k) (g k) c d) :
    L.AgreeAt W (Rule.kindOf t >>= f) (Rule.kindOf u >>= g) c d := by
  change Together _ _ _ (EStateM.bind (Rule.kindOf t) f c) (EStateM.bind (Rule.kindOf u) g d)
  rw [EStateM.bind, EStateM.bind, Rule.kindOf, Rule.kindOf, ← L.kind htu]
  cases hk : t.kind? with
  | none => exact .error (L.unknownSymbol htu hk) hcd
  | some k => exact h k hk

theorem agreeAt_look {W : α → β → Prop} {f : Kind → Rule α} {g : Kind → Rule β} {c d : Cursor}
    (hcd : L.Cursors c d) (h : ∀ k, c.current.kind? = some k → L.AgreeAt W (f k) (g k) c d) :
    L.AgreeAt W (Rule.look >>= f) (Rule.look >>= g) c d :=
  agreeAt_kindOf (L.current hcd) hcd h

theorem agreeAt_lookNext {W : α → β → Prop} {f : Kind → Rule α} {g : Kind → Rule β}
    {c d : Cursor} (hcd : L.Cursors c d) (h : ∀ k, L.AgreeAt W (f k) (g k) c d) :
    L.AgreeAt W (Rule.lookNext >>= f) (Rule.lookNext >>= g) c d :=
  agreeAt_kindOf (L.next hcd) hcd fun k _ => h k

/-- A rule that goes on by the kind of the current token. -/
theorem Keeps.look {f : Kind → Rule α} (h : ∀ k, L.Keeps (f k)) :
    L.Keeps (Rule.look >>= f) :=
  fun c d hcd => agreeAt_look hcd fun k _ => h k c d hcd

theorem Keeps.lookNext {f : Kind → Rule α} (h : ∀ k, L.Keeps (f k)) :
    L.Keeps (Rule.lookNext >>= f) :=
  fun c d hcd => agreeAt_lookNext hcd fun k => h k c d hcd

theorem keeps_budget : L.Keeps Rule.budget :=
  agree_get fun c d hcd => agree_pure (congrArg (· + 1) (L.length hcd)) c d hcd

/-! ## Taking tokens -/

/-- The token that is taken is of the kind that was seen. -/
theorem agreeAt_advance {c d : Cursor} {k : Kind} (hcd : L.Cursors c d)
    (hk : c.current.kind? = some k) :
    L.AgreeAt (fun t u => L.Tokens t u ∧ t.kind? = some k) Rule.advance Rule.advance c d := by
  refine agreeAt_look hcd fun j hj => ?_
  cases hk.symm.trans hj
  have htokens : L.Tokens c.current d.current := L.current hcd
  split
  next hne => exact AgreeAt.bind (L.step hcd hk hne) fun _ _ _ => agree_pure ⟨htokens, hk⟩
  · exact .ok ⟨htokens, hk⟩ hcd

theorem agree_advance : L.Agree L.Tokens Rule.advance Rule.advance := by
  refine agree_get fun c d hcd => agreeAt_look hcd fun k hk => ?_
  have htokens : L.Tokens c.current d.current := L.current hcd
  split
  next hne => exact AgreeAt.bind (L.step hcd hk hne) fun _ _ _ => agree_pure htokens
  · exact .ok htokens hcd

/-- Take a token, whatever it is, and go on. -/
theorem Keeps.behind {x : Rule α} (h : L.Keeps x) : L.Keeps (Rule.advance >>= fun _ => x) :=
  agree_advance.bind fun _ _ _ => h

/-- The two rules fail at the current tokens. -/
theorem keeps_unexpected (site : Site) {expected : Option Expected}
    (h : ∀ x ∈ expected, L.Asks x) : L.Keeps (Rule.unexpected site expected : Rule α) :=
  agree_get fun _ _ hcd => .error (L.unexpected site (L.current hcd) h) hcd

theorem keeps_unexpected_any (site : Site) : L.Keeps (Rule.unexpected site none : Rule α) :=
  keeps_unexpected site nofun

theorem keeps_missing (site : Site) {k : Kind} (hk : k.hasFixedName = true) :
    L.Keeps (Rule.unexpected site (some (.kind k)) : Rule α) := by
  refine keeps_unexpected site ?_
  rintro _ ⟨⟩
  exact L.asksKind hk

theorem agree_consume (site : Site) {k : Kind} (hk : L.Asks (.kind k)) :
    L.Agree (fun t u => L.Tokens t u ∧ t.kind? = some k) (Rule.consume site k)
      (Rule.consume site k) := by
  intro c d hcd
  refine agreeAt_look hcd fun j hj => ?_
  split
  next hjk => exact agreeAt_advance hcd (hjk ▸ hj)
  · refine .error (L.unexpected site (L.current hcd) ?_) hcd
    rintro _ ⟨⟩
    exact hk

theorem keeps_accept (k : Kind) : L.Keeps (Rule.accept k) := by
  refine Keeps.look fun j => ?_
  split
  · exact (keeps_pure true).behind
  · exact keeps_pure false

/-! ## Lists and optional parts -/

theorem keeps_itemsAfter (separator : Kind) {item : Rule α} (h : L.Keeps item) (n : Nat) :
    L.Keeps (Rule.itemsAfter separator item n) := by
  induction n with
  | zero => exact keeps_pure []
  | succ n ih =>
    refine (keeps_accept separator).bind fun b => ?_
    split
    · exact h.bind fun x => ih.bind fun xs => keeps_pure (x :: xs)
    · exact keeps_pure []

theorem keeps_sepBy (separator : Kind) {item : Rule α} (h : L.Keeps item) :
    L.Keeps (Rule.sepBy separator item) := by
  refine h.bind fun x => keeps_budget.bind fun n => ?_
  exact (keeps_itemsAfter separator h n).bind fun xs => keeps_pure (x :: xs)

theorem keeps_after (k : Kind) {rule : Rule α} (h : L.Keeps rule) :
    L.Keeps (Rule.after k rule) := by
  refine (keeps_accept k).bind fun b => ?_
  split
  · exact h.bind fun x => keeps_pure (some x)
  · exact keeps_pure none

end Lockstep
end QueryPipeline
