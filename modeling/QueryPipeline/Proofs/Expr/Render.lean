import QueryPipeline.Proofs.Expr.Grammar
import QueryPipeline.Proofs.Render

/-!
# Expressions in writing

An expression is written with all names in double quotes, and with parentheses around every operand
that is itself an operator, a membership test or a case.  So no precedence is needed to read it, and
it is read back as it was (`Expr.Printable.rendered`).

Not every tree can be written down.  `Expr.Printable` says which ones can: names without a double
quote, numbers that are spelled as such, no alias inside, and no empty list where the grammar asks
for something.
-/

namespace QueryPipeline

/-- A name that can stand between double quotes. -/
def Quotable (name : String) : Prop :=
  '"' ∉ name.toList

instance (name : String) : Decidable (Quotable name) :=
  inferInstanceAs (Decidable ('"' ∉ name.toList))

namespace Expr

/-- The expressions that can be written down. -/
inductive Printable : Expr → Prop
  | column {name : String} {table : Option String} :
      Quotable name → (∀ t ∈ table, Quotable t) → Printable (.column ⟨name, table, none⟩)
  | number {text : String} : Token.IsNumber text.toList → Printable (.literal (.number text))
  | string {value : String} : Printable (.literal (.string value))
  | null : Printable (.literal .null)
  | binary {left right : Expr} {operator : BinaryOperator} :
      Printable left → Printable right → Printable (.binary left operator right)
  | unary {operator : UnaryOperator} {operand : Expr} :
      Printable operand → Printable (.unary operator operand)
  | call {name : String} {arguments : List Expr} {distinct : Bool} :
      Quotable name → (∀ e ∈ arguments, Printable e) →
      Printable (.call name arguments distinct none)
  | membership {subject : Expr} {values : List Expr} {negated : Bool} :
      Printable subject → values ≠ [] → (∀ e ∈ values, Printable e) →
      Printable (.membership subject values negated)
  | caseOf {operand otherwise : Option Expr} {whens : List (Expr × Expr)} :
      (∀ e ∈ operand, Printable e) → whens ≠ [] → (∀ b ∈ whens, Printable b.1) →
      (∀ b ∈ whens, Printable b.2) → (∀ e ∈ otherwise, Printable e) →
      Printable (.caseOf operand whens otherwise)

end Expr

/-! ## Tokens of expressions -/

def BinaryOperator.token (o : BinaryOperator) : Token :=
  match o with
  | .or | .and | .like => ⟨.keyword, o.symbol, 0⟩
  | _ => ⟨.operator, o.symbol, 0⟩

/-- The kind of the token of an operator. -/
def BinaryOperator.kind : BinaryOperator → Kind
  | .or => .keyword .OR
  | .and => .keyword .AND
  | .like => .keyword .LIKE
  | .eq => .sign .eq
  | .ne => .sign .ne
  | .lt => .sign .lt
  | .le => .sign .le
  | .gt => .sign .gt
  | .ge => .sign .ge
  | .add => .sign .plus
  | .sub => .sign .minus
  | .mul => .sign .asterisk
  | .div => .sign .divide
  | .mod => .sign .modulo

theorem BinaryOperator.kind?_token (o : BinaryOperator) : o.token.kind? = some o.kind := by
  cases o <;> rfl

theorem BinaryOperator.legible_token (o : BinaryOperator) : o.token.Legible := by
  cases o with
  | or => exact Token.legible_ofKeyword .OR
  | and => exact Token.legible_ofKeyword .AND
  | like => exact Token.legible_ofKeyword .LIKE
  | eq | ne | lt | le | gt | ge | add | sub | mul | div | mod => rfl

def UnaryOperator.token (o : UnaryOperator) : Token :=
  match o with
  | .not => ⟨.keyword, o.symbol, 0⟩
  | .neg => ⟨.operator, o.symbol, 0⟩

theorem UnaryOperator.ofKind?_token (o : UnaryOperator) :
    ∃ k, o.token.kind? = some k ∧ UnaryOperator.ofKind? k = some o := by
  cases o with
  | not => exact ⟨.keyword .NOT, rfl, rfl⟩
  | neg => exact ⟨.sign .minus, rfl, rfl⟩

theorem UnaryOperator.legible_token (o : UnaryOperator) : o.token.Legible := by
  cases o with
  | not => exact Token.legible_ofKeyword .NOT
  | neg => rfl

def Literal.token : Literal → Token
  | .number text => ⟨.number, text, 0⟩
  | .string value => ⟨.string, value, 0⟩
  | .null => .ofKeyword .NULL

def ColumnRef.tokens (ref : ColumnRef) : List Token :=
  ref.table.elim [.ofName ref.name] fun t => [.ofName t, .ofMark .dot, .ofName ref.name]

namespace Expr

/-- Operands of these forms are put in parentheses. -/
def isCompound : Expr → Bool
  | .column .. => false
  | .literal .. => false
  | .call .. => false
  | .binary .. => true
  | .unary .. => true
  | .membership .. => true
  | .caseOf .. => true

/-- The tokens of an expression where it is an operand. -/
def operandTokens (e : Expr) (ts : List Token) : List Token :=
  if e.isCompound then Token.enclosed ts else ts

mutual

def tokens : Expr → List Token
  | .column ref => ref.tokens
  | .literal value => [value.token]
  | .binary left operator right =>
    operandTokens left (tokens left) ++ operator.token :: operandTokens right (tokens right)
  | .unary operator operand => operator.token :: operandTokens operand (tokens operand)
  | .call name arguments distinct _ =>
    .ofName name :: .ofMark .lparen :: (Token.flag .DISTINCT distinct ++
      (Token.listed .comma (tokensOfEach arguments) ++ [.ofMark .rparen]))
  | .membership subject values negated =>
    operandTokens subject (tokens subject) ++ (Token.flag .NOT negated ++
      .ofKeyword .IN :: Token.enclosed (Token.listed .comma (tokensOfEach values)))
  | .caseOf operand whens otherwise =>
    .ofKeyword .CASE :: (operandOfCase operand ++ (branchTokens whens ++
      (Token.clause .ELSE (tokensOfOption otherwise) ++ [.ofKeyword .END])))

def tokensOfEach : List Expr → List (List Token)
  | [] => []
  | e :: rest => tokens e :: tokensOfEach rest

def tokensOfOption : Option Expr → Option (List Token)
  | none => none
  | some e => some (tokens e)

def operandOfCase : Option Expr → List Token
  | none => []
  | some e => operandTokens e (tokens e)

def branchTokens : List (Expr × Expr) → List Token
  | [] => []
  | (condition, result) :: rest =>
    .ofKeyword .WHEN :: (tokens condition ++ .ofKeyword .THEN ::
      (tokens result ++ branchTokens rest))

end

theorem tokensOfEach_eq_map (es : List Expr) : tokensOfEach es = es.map tokens := by
  induction es with
  | nil => rfl
  | cons e es ih => rw [tokensOfEach, ih, List.map_cons]

theorem tokensOfOption_eq_map (o : Option Expr) : tokensOfOption o = o.map tokens := by
  cases o <;> rfl

end Expr

/-! ## Printable expressions are read back -/

namespace Grammar

/-- An operator between two operands that are primary expressions. -/
theorem Disjunction.binary {us vs : List Token} {t : Token} {left right : Expr}
    {o : BinaryOperator} (hleft : Primary us left) (ht : t.kind? = some o.kind)
    (hright : Primary vs right) : Disjunction (us ++ t :: vs) (.binary left o right) := by
  have hl := hleft.sum.comparison
  have hr := hright.sum.comparison
  cases o with
  | or => exact .mk (.operator (.operand hl.conjunction) ht rfl hr.conjunction)
  | and =>
    have h : Conjunction _ _ := .mk (.operator (.operand hl) ht rfl hr)
    exact h.disjunction
  | eq | ne | lt | le | gt | ge | like =>
    have h : Comparison _ _ := .chain (.operator (.operand hleft.sum) ht rfl hright.sum)
    exact h.conjunction.disjunction
  | add | sub =>
    have h : Sum _ _ := .mk (.operator (.operand (Unary.primary hleft).product) ht rfl
      (Unary.primary hright).product)
    exact h.disjunction
  | mul | div | mod =>
    have h : Product _ _ := .mk (.operator (.operand (.primary hleft)) ht rfl (.primary hright))
    exact h.sum.disjunction

theorem Disjunction.membership {us vs ws : List Token} {t : Token} {e : Expr} {es : List Expr}
    {negated : Bool} (he : Primary us e) (hvs : Phrase.Flag (.keyword .NOT) vs negated)
    (ht : t.kind? = some (.keyword .IN)) (hws : Values ws es) :
    Disjunction (us ++ (vs ++ t :: ws)) (.membership e es negated) := by
  cases hvs with
  | absent => exact (Comparison.isIn he.sum ht hws).conjunction.disjunction
  | present hs => exact (Comparison.notIn he.sum hs ht hws).conjunction.disjunction

end Grammar

namespace Expr

open Grammar

/-- An expression is written down by its tokens; as a primary expression, unless it is one of those
that need parentheses. -/
structure Rendered (e : Expr) : Prop where
  disjunction : Renders Disjunction e.tokens e
  primary : e.isCompound = false → Renders Primary e.tokens e

theorem Rendered.of_primary {e : Expr} (h : Renders Primary e.tokens e) : Rendered e :=
  ⟨h.mono fun _ hp => hp.disjunction, fun _ => h⟩

theorem Rendered.operand {e : Expr} (h : Rendered e) :
    Renders Primary (operandTokens e e.tokens) e := by
  rw [operandTokens]
  cases hc : e.isCompound with
  | false => exact h.primary hc
  | true =>
    refine ⟨Renders.legible_enclosed h.disjunction.legible, fun place => ?_⟩
    rw [if_pos rfl, Token.enclosed, Token.placed_cons, Token.placed_append]
    exact .parens (Token.kind?_ofMark .lparen) (h.disjunction.phrase _) (Token.kind?_ofMark .rparen)

theorem rendered_column {name : String} {table : Option String} (hname : Quotable name)
    (htable : ∀ t ∈ table, Quotable t) : Rendered (.column ⟨name, table, none⟩) := by
  refine .of_primary ?_
  cases table with
  | none =>
    refine ⟨List.forall_mem_singleton.mpr hname, fun place => ?_⟩
    exact .name (k := .identifier) rfl rfl
  | some t =>
    refine ⟨?_, fun place => ?_⟩
    · simp only [tokens, ColumnRef.tokens, Option.elim, List.forall_mem_cons]
      exact ⟨htable t rfl, Token.legible_ofMark _, hname, nofun⟩
    · exact .qualified (k := .identifier) rfl rfl (Token.kind?_ofMark .dot) rfl

theorem renders_arguments {es : List Expr} (h : ∀ e ∈ es, Rendered e) :
    ∃ o, es = o.getD [] ∧ Renders (Phrase.Maybe (Phrase.Separated (.mark .comma) Disjunction))
      (Token.listed .comma (tokensOfEach es)) o := by
  rw [tokensOfEach_eq_map]
  cases es with
  | nil => exact ⟨none, rfl, nofun, fun _ => .absent⟩
  | cons e es =>
    have hlist := Renders.listed .comma (List.cons_ne_nil e es) fun e he => (h e he).disjunction
    exact ⟨some (e :: es), rfl, hlist.legible, fun place => .present (hlist.phrase place)⟩

theorem rendered_call {name : String} {arguments : List Expr} {distinct : Bool}
    (hname : Quotable name) (h : ∀ e ∈ arguments, Rendered e) :
    Rendered (.call name arguments distinct none) := by
  refine .of_primary ?_
  have hflag := Renders.flag .DISTINCT distinct
  obtain ⟨o, ho, harguments⟩ := renders_arguments h
  refine ⟨?_, fun place => ?_⟩
  · simp only [tokens, List.forall_mem_cons, List.forall_mem_append]
    exact ⟨hname, Token.legible_ofMark _, hflag.legible, harguments.legible,
      Token.legible_ofMark _, nofun⟩
  · simp only [tokens, Token.placed_cons, Token.placed_append]
    rw [congrArg (Expr.call name · distinct none) ho]
    exact .call (k := .identifier) rfl rfl (Token.kind?_ofMark .lparen) (hflag.phrase _)
      (harguments.phrase _) (Token.kind?_ofMark .rparen)

theorem renders_values {es : List Expr} (hne : es ≠ []) (h : ∀ e ∈ es, Rendered e) :
    Renders Values (Token.enclosed (Token.listed .comma (tokensOfEach es))) es := by
  rw [tokensOfEach_eq_map]
  have hlist := Renders.listed .comma hne fun e he => (h e he).disjunction
  refine ⟨Renders.legible_enclosed hlist.legible, fun place => ?_⟩
  rw [Token.enclosed, Token.placed_cons, Token.placed_append]
  exact .mk (Token.kind?_ofMark .lparen) (hlist.phrase _) (Token.kind?_ofMark .rparen)

theorem rendered_membership {subject : Expr} {values : List Expr} {negated : Bool}
    (hsubject : Rendered subject) (hne : values ≠ []) (h : ∀ e ∈ values, Rendered e) :
    Rendered (.membership subject values negated) := by
  have hoperand := hsubject.operand
  have hflag := Renders.flag .NOT negated
  have hvalues := renders_values hne h
  refine ⟨⟨?_, fun place => ?_⟩, nofun⟩
  · simp only [tokens, List.forall_mem_cons, List.forall_mem_append]
    exact ⟨hoperand.legible, hflag.legible, Token.legible_ofKeyword _, hvalues.legible⟩
  · simp only [tokens, Token.placed_cons, Token.placed_append]
    exact .membership (hoperand.phrase _) (hflag.phrase _) (Token.kind?_ofKeyword .IN)
      (hvalues.phrase _)

theorem rendered_binary {left right : Expr} {o : BinaryOperator} (hleft : Rendered left)
    (hright : Rendered right) : Rendered (.binary left o right) := by
  refine ⟨⟨?_, fun place => ?_⟩, nofun⟩
  · simp only [tokens, List.forall_mem_cons, List.forall_mem_append]
    exact ⟨hleft.operand.legible, o.legible_token, hright.operand.legible⟩
  · simp only [tokens, Token.placed_cons, Token.placed_append]
    exact .binary (hleft.operand.phrase _) o.kind?_token (hright.operand.phrase _)

theorem rendered_unary {operand : Expr} {o : UnaryOperator} (h : Rendered operand) :
    Rendered (.unary o operand) := by
  obtain ⟨k, hk, ho⟩ := o.ofKind?_token
  refine ⟨⟨?_, fun place => ?_⟩, nofun⟩
  · simp only [tokens, List.forall_mem_cons]
    exact ⟨o.legible_token, h.operand.legible⟩
  · simp only [tokens, Token.placed_cons]
    refine Unary.disjunction ?_
    exact .operator hk ho (.primary (h.operand.phrase _))

/-- The branches of a case, one at least.  The induction is on the list of them. -/
theorem renders_branches {whens : List (Expr × Expr)} (hne : whens ≠ [])
    (hfst : ∀ b ∈ whens, Rendered b.1) (hsnd : ∀ b ∈ whens, Rendered b.2) :
    Renders Branches (branchTokens whens) whens := by
  induction whens with
  | nil => exact absurd rfl hne
  | cons b rest ih =>
    have hcondition := (hfst b (by simp)).disjunction
    have hresult := (hsnd b (by simp)).disjunction
    cases rest with
    | nil =>
      refine ⟨?_, fun place => ?_⟩
      · simp only [branchTokens, List.append_nil, List.forall_mem_cons, List.forall_mem_append]
        exact ⟨Token.legible_ofKeyword _, hcondition.legible, Token.legible_ofKeyword _,
          hresult.legible⟩
      · simp only [branchTokens, List.append_nil, Token.placed_cons, Token.placed_append]
        exact .one (Token.kind?_ofKeyword .WHEN) (hcondition.phrase _) (Token.kind?_ofKeyword .THEN)
          (hresult.phrase _)
    | cons c rest =>
      have hrest := ih (by simp) (fun d hd => hfst d (List.mem_cons_of_mem _ hd))
        fun d hd => hsnd d (List.mem_cons_of_mem _ hd)
      rw [branchTokens]
      refine ⟨?_, fun place => ?_⟩
      · simp only [List.forall_mem_cons, List.forall_mem_append]
        exact ⟨Token.legible_ofKeyword _, hcondition.legible, Token.legible_ofKeyword _,
          hresult.legible, hrest.legible⟩
      · simp only [Token.placed_cons, Token.placed_append]
        exact .more (Token.kind?_ofKeyword .WHEN) (hcondition.phrase _)
          (Token.kind?_ofKeyword .THEN) (hresult.phrase _) (hrest.phrase _)

theorem renders_operandOfCase {operand : Option Expr} (h : ∀ e ∈ operand, Rendered e) :
    Renders (Phrase.Maybe Disjunction) (operandOfCase operand) operand := by
  cases operand with
  | none => exact ⟨nofun, fun _ => .absent⟩
  | some e =>
    have hoperand := (h e rfl).operand
    refine ⟨hoperand.legible, fun place => .present ?_⟩
    exact (hoperand.phrase place).disjunction

theorem rendered_caseOf {operand otherwise : Option Expr} {whens : List (Expr × Expr)}
    (hoperand : ∀ e ∈ operand, Rendered e) (hne : whens ≠ []) (hfst : ∀ b ∈ whens, Rendered b.1)
    (hsnd : ∀ b ∈ whens, Rendered b.2) (hotherwise : ∀ e ∈ otherwise, Rendered e) :
    Rendered (.caseOf operand whens otherwise) := by
  have hfirst := renders_operandOfCase hoperand
  have hbranches := renders_branches hne hfst hsnd
  have helse := Renders.clause (fun e he => (hotherwise e he).disjunction) .ELSE
  rw [← tokensOfOption_eq_map] at helse
  refine .of_primary ⟨?_, fun place => ?_⟩
  · simp only [tokens, List.forall_mem_cons, List.forall_mem_append]
    exact ⟨Token.legible_ofKeyword _, hfirst.legible, hbranches.legible, helse.legible,
      Token.legible_ofKeyword _, nofun⟩
  · simp only [tokens, Token.placed_cons, Token.placed_append]
    exact .caseOf (Token.kind?_ofKeyword .CASE) (hfirst.phrase _) (hbranches.phrase _)
      (helse.phrase _) (Token.kind?_ofKeyword .END)

/-- **A printable expression is written down by its tokens.** -/
theorem Printable.rendered {e : Expr} (h : e.Printable) : Rendered e := by
  induction h with
  | column hname htable => exact rendered_column hname htable
  | number htext =>
    exact .of_primary ⟨List.forall_mem_singleton.mpr htext, fun _ => .number rfl⟩
  | string => exact .of_primary ⟨List.forall_mem_singleton.mpr trivial, fun _ => .string rfl⟩
  | null =>
    refine .of_primary ⟨List.forall_mem_singleton.mpr (Token.legible_ofKeyword .NULL), fun _ => ?_⟩
    exact .null (Token.kind?_ofKeyword .NULL)
  | binary _ _ hleft hright => exact rendered_binary hleft hright
  | unary _ hoperand => exact rendered_unary hoperand
  | call hname _ harguments => exact rendered_call hname harguments
  | membership _ hne _ hsubject hvalues => exact rendered_membership hsubject hne hvalues
  | caseOf _ hne _ _ _ hoperand hfst hsnd hotherwise =>
    exact rendered_caseOf hoperand hne hfst hsnd hotherwise

end Expr

end QueryPipeline
