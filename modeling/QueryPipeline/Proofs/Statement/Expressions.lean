import QueryPipeline.Proofs.Expr.Induction
import QueryPipeline.Proofs.Statement.Grammar

/-!
# The expressions of a statement

The expressions that stand in the clauses of a statement are phrases of some of its tokens, up to an
alias (`occurs_statement`).  So what is known of all phrases of expressions is known of them.  Here
this is used for numbers: a number in a statement is the text of one of the number tokens that the
statement was read from (`numbers_subset`).
-/

namespace QueryPipeline

/-! ## Expressions and numbers -/

def Select.exprs (s : Select) : List Expr :=
  s.columns ++ (s.condition.toList ++ (s.joins.flatMap (fun j => j.condition.toList) ++
    (s.grouping.getD [] ++ (s.having.toList ++ (s.sortKeys.getD []).map SortKey.expression))))

def Insert.exprs (s : Insert) : List Expr :=
  s.rows.flatten

def Update.exprs (s : Update) : List Expr :=
  s.assignments.map Assignment.value ++ s.condition.toList

def Delete.exprs (s : Delete) : List Expr :=
  s.condition.toList

/-- The expressions in the clauses of a statement. -/
def Statement.exprs : Statement → List Expr
  | .select s => s.exprs
  | .insert s => s.exprs
  | .update s => s.exprs
  | .delete s => s.exprs

namespace Expr

mutual

/-- The texts of the numbers in an expression. -/
def numbers : Expr → List String
  | .column _ => []
  | .literal (.number text) => [text]
  | .literal _ => []
  | .binary left _ right => numbers left ++ numbers right
  | .unary _ operand => numbers operand
  | .call _ arguments _ _ => numbersIn arguments
  | .membership subject values _ => numbers subject ++ numbersIn values
  | .caseOf operand whens otherwise =>
    optionNumbers operand ++ (branchNumbers whens ++ optionNumbers otherwise)

def numbersIn : List Expr → List String
  | [] => []
  | e :: rest => numbers e ++ numbersIn rest

def optionNumbers : Option Expr → List String
  | none => []
  | some e => numbers e

def branchNumbers : List (Expr × Expr) → List String
  | [] => []
  | (condition, result) :: rest => numbers condition ++ (numbers result ++ branchNumbers rest)

end

variable {T : String → Prop}

theorem forall_numbersIn {es : List Expr} :
    (∀ text ∈ numbersIn es, T text) ↔ ∀ e ∈ es, ∀ text ∈ e.numbers, T text := by
  induction es with
  | nil => simp [numbersIn]
  | cons e rest ih => rw [numbersIn, List.forall_mem_append, ih, List.forall_mem_cons]

theorem forall_optionNumbers {o : Option Expr} :
    (∀ text ∈ optionNumbers o, T text) ↔ ∀ e ∈ o, ∀ text ∈ e.numbers, T text := by
  cases o <;> simp [optionNumbers]

theorem forall_branchNumbers {bs : List (Expr × Expr)} :
    (∀ text ∈ branchNumbers bs, T text) ↔
      ∀ b ∈ bs, (∀ text ∈ b.1.numbers, T text) ∧ ∀ text ∈ b.2.numbers, T text := by
  induction bs with
  | nil => simp [branchNumbers]
  | cons b rest ih =>
    rw [branchNumbers, List.forall_mem_append, List.forall_mem_append, ih, List.forall_mem_cons,
      and_assoc]

theorem numbers_aliased (e : Expr) (name : String) : (e.aliased name).numbers = e.numbers := by
  cases e <;> rfl

end Expr

/-- The texts of the numbers in the expressions of a statement. -/
def Statement.numbers (s : Statement) : List String :=
  s.exprs.flatMap Expr.numbers

/-! ## Where the expressions come from -/

namespace Grammar

/-- Some of the tokens are a phrase of the expression, which may have been given an alias. -/
def Occurs (us : List Token) (e : Expr) : Prop :=
  ∃ vs inner, vs ⊆ us ∧ Disjunction vs inner ∧ (e = inner ∨ ∃ name, e = inner.aliased name)

theorem Occurs.mono {us vs : List Token} {e : Expr} (h : Occurs us e) (hsubset : us ⊆ vs) :
    Occurs vs e := by
  obtain ⟨ws, inner, hws, hphrase, he⟩ := h
  exact ⟨ws, inner, List.Subset.trans hws hsubset, hphrase, he⟩

theorem Disjunction.occurs {us : List Token} {e : Expr} (h : Disjunction us e) : Occurs us e :=
  ⟨us, e, List.Subset.refl us, h, .inl rfl⟩

end Grammar

namespace Phrase

open Grammar (Occurs)

variable {α : Type} {P : Phrase α} {H : α → Expr → Prop}

/-- The expressions that belong to what is read as a phrase stand in its tokens. -/
def Holds (P : Phrase α) (H : α → Expr → Prop) : Prop :=
  ∀ us a e, P us a → H a e → Occurs us e

theorem Holds.behind (h : Holds P H) (k : Kind) : Holds (Behind k P) H := by
  rintro _ a e ⟨_, hP⟩ he
  exact (h _ a e hP he).mono (List.subset_cons_self _ _)

theorem Holds.after (h : Holds P H) (k : Kind) :
    Holds (After k P) (fun o e => ∃ a ∈ o, H a e) := by
  rintro us o e hafter ⟨a, ha, he⟩
  cases hafter with
  | absent => cases ha
  | present _ hP =>
    cases ha
    exact (h _ _ e hP he).mono (List.subset_cons_self _ _)

theorem Holds.repeated (h : Holds P H) : Holds (Repeated P) (fun as e => ∃ a ∈ as, H a e) := by
  rintro us as e hall ⟨a, ha, he⟩
  induction hall with
  | nil => cases ha
  | cons hP _ ih =>
    rcases List.mem_cons.mp ha with rfl | ha
    · exact (h _ _ e hP he).mono (List.subset_append_left _ _)
    · exact (ih ha).mono (List.subset_append_right _ _)

theorem holds_separatedBefore {P : Option Kind → Phrase α} (h : ∀ next, Holds (P next) H)
    (k : Kind) (next : Option Kind) :
    Holds (SeparatedBefore k P next) (fun as e => ∃ a ∈ as, H a e) := by
  rintro us as e hall ⟨a, ha, he⟩
  induction hall with
  | one hP =>
    rw [List.mem_singleton.mp ha] at he
    exact h _ _ _ e hP he
  | more hP _ _ ih =>
    rcases List.mem_cons.mp ha with rfl | ha
    · exact (h _ _ _ e hP he).mono (List.subset_append_left _ _)
    · exact (ih ha).mono (List.subset_append_of_subset_right _ (List.subset_cons_self _ _))

theorem Holds.separated (h : Holds P H) (k : Kind) :
    Holds (Separated k P) (fun as e => ∃ a ∈ as, H a e) :=
  fun us as e hall => holds_separatedBefore (fun _ => h) k none us as e (hall.before none)

end Phrase

namespace Grammar

open Phrase (Holds)

theorem holds_disjunction : Holds Disjunction (· = ·) := by
  rintro us e _ h rfl
  exact h.occurs

theorem holds_item (next : Option Kind) : Holds (ItemPhrase next) (· = ·) := by
  rintro us e _ h rfl
  cases h with
  | asterisk ht => exact (Primary.asterisk ht).sum.comparison.conjunction.disjunction.occurs
  | plain hus => exact hus.occurs
  | named hus => exact ⟨_, _, List.subset_append_left _ _, hus, .inr ⟨_, rfl⟩⟩
  | bare hus => exact ⟨_, _, List.subset_append_left _ _, hus, .inr ⟨_, rfl⟩⟩

theorem holds_join : Holds JoinPhrase (fun j e => e ∈ j.condition) := by
  rintro _ j e ⟨_, _, _, hws⟩ he
  refine (holds_disjunction.after _ _ _ e hws ⟨e, he, rfl⟩).mono fun t ht => ?_
  simp [ht]

theorem holds_sortKey : Holds SortPhrase (fun k e => k.expression = e) := by
  rintro _ _ _ ⟨hus, _⟩ rfl
  exact hus.occurs.mono (List.subset_append_left _ _)

theorem holds_select (next : Option Kind) : Holds (SelectPhrase next) (fun s e => e ∈ s.exprs) := by
  rintro _ s e ⟨_, _, his, ⟨_, hjs, hws, hgs, hhs, hos, _, _⟩⟩ he
  have hlist := holds_disjunction.separated (.mark .comma)
  have hkeys := holds_sortKey.separated (.mark .comma)
  simp only [Select.exprs, List.mem_append, Option.mem_toList, List.mem_flatMap, List.mem_map] at he
  rcases he with he | he | ⟨j, hj, he⟩ | he | he | ⟨k, hk, he⟩
  · refine (Phrase.holds_separatedBefore holds_item _ _ _ _ e his ⟨e, he, rfl⟩).mono fun t ht => ?_
    simp [ht]
  · refine (holds_disjunction.after _ _ _ e hws ⟨e, he, rfl⟩).mono fun t ht => ?_
    simp [ht]
  · refine (holds_join.repeated _ _ e hjs ⟨j, hj, he⟩).mono fun t ht => ?_
    simp [ht]
  · obtain ⟨es, hes, he⟩ : ∃ es ∈ s.grouping, e ∈ es := by
      cases hgrouping : s.grouping with
      | none => simp [hgrouping] at he
      | some es => exact ⟨es, rfl, by simpa [hgrouping] using he⟩
    refine ((hlist.behind _).after _ _ _ e hgs ⟨es, hes, e, he, rfl⟩).mono fun t ht => ?_
    simp [ht]
  · refine (holds_disjunction.after _ _ _ e hhs ⟨e, he, rfl⟩).mono fun t ht => ?_
    simp [ht]
  · obtain ⟨ks, hks, hk⟩ : ∃ ks ∈ s.sortKeys, k ∈ ks := by
      cases hsort : s.sortKeys with
      | none => simp [hsort] at hk
      | some ks => exact ⟨ks, rfl, by simpa [hsort] using hk⟩
    refine ((hkeys.behind _).after _ _ _ e hos ⟨ks, hks, k, hk, he⟩).mono fun t ht => ?_
    simp [ht]

theorem holds_values : Holds Values (fun es e => e ∈ es) := by
  rintro _ es e ⟨_, hus, _⟩ he
  refine (holds_disjunction.separated _ _ _ e hus ⟨e, he, rfl⟩).mono fun t ht => ?_
  simp [ht]

theorem holds_insert : Holds InsertPhrase (fun s e => e ∈ s.exprs) := by
  rintro _ s e ⟨_, _, _, _, _, hrs⟩ he
  refine (holds_values.separated _ _ _ e hrs (List.mem_flatten.mp he)).mono fun t ht => ?_
  simp [ht]

theorem holds_assignment : Holds AssignmentPhrase (fun a e => a.value = e) := by
  rintro _ _ _ ⟨_, _, hus⟩ rfl
  refine hus.occurs.mono fun t ht => ?_
  simp [ht]

theorem holds_update : Holds UpdatePhrase (fun s e => e ∈ s.exprs) := by
  rintro _ s e ⟨_, _, _, has, hws⟩ he
  simp only [Update.exprs, List.mem_append, List.mem_map, Option.mem_toList] at he
  rcases he with he | he
  · refine (holds_assignment.separated _ _ _ e has he).mono fun t ht => ?_
    simp [ht]
  · refine (holds_disjunction.after _ _ _ e hws ⟨e, he, rfl⟩).mono fun t ht => ?_
    simp [ht]

theorem holds_delete : Holds DeletePhrase (fun s e => e ∈ s.exprs) := by
  rintro _ s e ⟨_, _, _, hws⟩ he
  have he : e ∈ s.condition := Option.mem_toList.mp he
  refine (holds_disjunction.after _ _ _ e hws ⟨e, he, rfl⟩).mono fun t ht => ?_
  simp [ht]

/-- **The expressions of a statement stand in its tokens.** -/
theorem holds_statement (next : Option Kind) :
    Holds (StatementPhrase next) (fun s e => e ∈ s.exprs) := by
  intro us s e h
  cases h with
  | select h => exact holds_select next _ _ e h
  | insert h => exact holds_insert _ _ e h
  | update h => exact holds_update _ _ e h
  | delete h => exact holds_delete _ _ e h

theorem holds_script : Holds ScriptPhrase (fun all e => ∃ s ∈ all, e ∈ s.exprs) := by
  rintro us all e h ⟨s, hs, he⟩
  induction h with
  | last h =>
    rw [List.mem_singleton.mp hs] at he
    exact holds_statement _ _ _ e h he
  | closed h =>
    rw [List.mem_singleton.mp hs] at he
    exact (holds_statement _ _ _ e h he).mono (List.subset_append_left _ _)
  | cons h _ _ ih =>
    rcases List.mem_cons.mp hs with rfl | hs
    · exact (holds_statement _ _ _ e h he).mono (List.subset_append_left _ _)
    · exact (ih hs).mono (List.subset_append_of_subset_right _ (List.subset_cons_self _ _))

/-! ## Numbers -/

/-- A text is that of a number token. -/
def NumberIn (us : List Token) (text : String) : Prop :=
  ∃ t ∈ us, t.kind? = some .number ∧ t.text = text

theorem NumberIn.mono {us vs : List Token} {text : String} (h : NumberIn us text)
    (hsubset : us ⊆ vs) : NumberIn vs text := by
  obtain ⟨t, ht, hkind, htext⟩ := h
  exact ⟨t, hsubset ht, hkind, htext⟩

/-- The numbers of an expression are number tokens. -/
def Numbered : Phrase Expr :=
  fun us e => ∀ text ∈ e.numbers, NumberIn us text

theorem Numbered.separated {k : Kind} {us : List Token} {es : List Expr}
    (h : Phrase.Separated k Numbered us es) : ∀ text ∈ Expr.numbersIn es, NumberIn us text := by
  obtain ⟨_, hall⟩ := h.forall_mem (Q := fun e => ∀ text ∈ e.numbers, NumberIn us text)
    fun _ _ hvs he text htext => (he text htext).mono hvs.subset
  exact Expr.forall_numbersIn.mpr hall

theorem Numbered.branches {us : List Token} {whens : List (Expr × Expr)}
    (h : Phrase.Repeated (Branch Numbered) us whens) :
    ∀ text ∈ Expr.branchNumbers whens, NumberIn us text := by
  induction h with
  | nil => nofun
  | cons hbranch _ ih =>
    obtain ⟨_, hcondition, _, hresult⟩ := hbranch
    intro text htext
    simp only [Expr.branchNumbers, List.mem_append] at htext
    rcases htext with htext | htext | htext
    · refine (hcondition text htext).mono fun t ht => ?_
      simp [ht]
    · refine (hresult text htext).mono fun t ht => ?_
      simp [ht]
    · exact (ih text htext).mono (List.subset_append_right _ _)

theorem compositional_numbered : Compositional Numbered where
  number ht text htext := ⟨_, by simp, ht, (List.mem_singleton.mp htext).symm⟩
  string _ := nofun
  null _ := nofun
  asterisk _ := nofun
  name _ _ := nofun
  qualified _ _ _ _ := nofun
  wildcard _ _ _ _ := nofun
  call _ _ _ _ hvs _ text htext := by
    cases hvs with
    | absent => cases htext
    | present hvs =>
      refine (Numbered.separated hvs text htext).mono fun t ht => ?_
      simp [ht]
  caseOf _ hus hvs _ hws _ text htext := by
    simp only [Expr.numbers, List.mem_append] at htext
    rcases htext with htext | htext | htext
    · cases hus with
      | absent => cases htext
      | present hus =>
        refine (hus text htext).mono fun t ht => ?_
        simp [ht]
    · refine (Numbered.branches hvs text htext).mono fun t ht => ?_
      simp [ht]
    · cases hws with
      | absent => cases htext
      | present _ hws =>
        refine (hws text htext).mono fun t ht => ?_
        simp [ht]
  parens _ hus _ text htext := by
    refine (hus text htext).mono fun t ht => ?_
    simp [ht]
  unary _ _ hus text htext := (hus text htext).mono (List.subset_cons_self _ _)
  binary hus _ hvs text htext := by
    rcases List.mem_append.mp htext with htext | htext
    · exact (hus text htext).mono (List.subset_append_left _ _)
    · refine (hvs text htext).mono fun t ht => ?_
      simp [ht]
  membership hus _ _ _ hvs _ text htext := by
    rcases List.mem_append.mp htext with htext | htext
    · exact (hus text htext).mono (List.subset_append_left _ _)
    · refine (Numbered.separated hvs text htext).mono fun t ht => ?_
      simp [ht]

/-- **The numbers of a script are number tokens of it.** -/
theorem numberIn_script {us : List Token} {all : List Statement} (h : ScriptPhrase us all) :
    ∀ s ∈ all, ∀ text ∈ s.numbers, NumberIn us text := by
  intro s hs text htext
  obtain ⟨e, he, htext⟩ := List.mem_flatMap.mp htext
  obtain ⟨vs, inner, hsubset, hinner, heq⟩ := holds_script us all e h ⟨s, hs, he⟩
  refine (compositional_numbered.disjunction hinner text ?_).mono hsubset
  rcases heq with rfl | ⟨name, rfl⟩
  · exact htext
  · rwa [Expr.numbers_aliased] at htext

end Grammar
end QueryPipeline
