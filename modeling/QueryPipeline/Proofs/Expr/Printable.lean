import QueryPipeline.Proofs.Expr.Induction

/-!
# Expressions of a text can be written down

A token that the scanner has made is `Clean`: if it is a number it is spelled as one, and if it is a
name there is no double quote in it.  From such tokens, only printable expressions are read
(`yields_printable`).
-/

namespace QueryPipeline

/-- What the grammar takes over from a token can be written down. -/
structure Token.Clean (t : Token) : Prop where
  number : t.kind? = some .number → Token.IsNumber t.text.toList
  name : ∀ k, t.kind? = some k → k.isName = true → Quotable t.text

theorem Token.IsWord.quotable {text : String} (h : Token.IsWord text.toList) : Quotable text :=
  fun hquote => absurd (h.2.2 _ hquote) (by decide)

theorem Token.Clean.of_kind {t : Token} {k : Kind} (hk : t.kind? = some k)
    (hnumber : k = .number → Token.IsNumber t.text.toList)
    (hname : k.isName = true → Quotable t.text) : t.Clean := by
  refine ⟨fun h => hnumber (Option.some.inj (hk.symm.trans h)), fun j hj => ?_⟩
  obtain rfl := Option.some.inj (hk.symm.trans hj)
  exact hname

theorem Token.Legible.clean {t : Token} (h : t.Legible) : t.Clean := by
  obtain ⟨form, text, position⟩ := t
  cases form with
  | keyword =>
    obtain ⟨w, hw⟩ := Option.isSome_iff_exists.mp h.2
    exact .of_kind (congrArg some (Kind.ofName_of_keyword hw)) nofun fun _ => h.1.quotable
  | identifier => exact .of_kind rfl nofun fun _ => h
  | number => exact .of_kind rfl (fun _ => h) nofun
  | string => exact .of_kind rfl nofun nofun
  | punctuation =>
    obtain ⟨m, hm⟩ := Option.isSome_iff_exists.mp h
    exact .of_kind (congrArg (Option.map Kind.mark) hm) nofun nofun
  | operator =>
    obtain ⟨s, hs⟩ := Option.isSome_iff_exists.mp h
    exact .of_kind (congrArg (Option.map Kind.sign) hs) nofun nofun
  | plain => cases h
  | eof => cases h

theorem Token.clean_endOfText (position : Int) : (Token.endOfText position).Clean :=
  .of_kind rfl nofun nofun

/-! ## What phrases of a text yield -/

namespace Phrase

variable {α : Type} {P : Phrase α} {Q : α → Prop}

/-- What is read as a phrase from tokens of a text has a property. -/
def Yields (P : Phrase α) (Q : α → Prop) : Prop :=
  ∀ us a, (∀ t ∈ us, t.Clean) → P us a → Q a

theorem Yields.behind (h : Yields P Q) (k : Kind) : Yields (Behind k P) Q := by
  rintro _ a hclean ⟨_, hP⟩
  exact h _ a (List.forall_mem_cons.mp hclean).2 hP

theorem Yields.after (h : Yields P Q) (k : Kind) : Yields (After k P) (fun o => ∀ a ∈ o, Q a) := by
  intro us o hclean hafter
  cases hafter with
  | absent => nofun
  | present _ hP =>
    rintro _ ⟨⟩
    exact h _ _ (List.forall_mem_cons.mp hclean).2 hP

theorem Yields.repeated (h : Yields P Q) : Yields (Repeated P) (fun as => ∀ a ∈ as, Q a) := by
  intro us as hclean hall
  induction hall with
  | nil => nofun
  | cons hP _ ih =>
    rw [List.forall_mem_append] at hclean
    exact List.forall_mem_cons.mpr ⟨h _ _ hclean.1 hP, ih hclean.2⟩

theorem Yields.separatedBefore {P : Option Kind → Phrase α} (h : ∀ next, Yields (P next) Q)
    (k : Kind) (next : Option Kind) :
    Yields (SeparatedBefore k P next) (fun as => as ≠ [] ∧ ∀ a ∈ as, Q a) := by
  intro us as hclean hall
  induction hall with
  | one hP => exact ⟨by simp, List.forall_mem_singleton.mpr (h _ _ _ hclean hP)⟩
  | more hP _ _ ih =>
    rw [List.forall_mem_append, List.forall_mem_cons] at hclean
    exact ⟨by simp, List.forall_mem_cons.mpr ⟨h _ _ _ hclean.1 hP, (ih hclean.2.2).2⟩⟩

theorem Yields.separated (h : Yields P Q) (k : Kind) :
    Yields (Separated k P) (fun as => as ≠ [] ∧ ∀ a ∈ as, Q a) :=
  fun us as hclean hall => separatedBefore (fun _ => h) k none us as hclean (hall.before none)

end Phrase

/-! ## Expressions -/

namespace Grammar

/-- Expressions of clean tokens are printable. -/
def Prints : Phrase Expr :=
  fun us e => (∀ t ∈ us, t.Clean) → e.Printable

theorem Prints.separated {us : List Token} {es : List Expr} (hclean : ∀ t ∈ us, t.Clean)
    (h : Phrase.Separated (.mark .comma) Prints us es) : es ≠ [] ∧ ∀ e ∈ es, e.Printable :=
  h.forall_mem fun _ _ hvs he => he fun t ht => hclean t (hvs.subset ht)

theorem Prints.branches {us : List Token} {whens : List (Expr × Expr)}
    (hclean : ∀ t ∈ us, t.Clean) (h : Phrase.Repeated (Branch Prints) us whens) :
    ∀ b ∈ whens, b.1.Printable ∧ b.2.Printable := by
  refine Phrase.Yields.repeated ?_ us whens hclean h
  rintro _ _ hclean ⟨_, hcondition, _, hresult⟩
  simp only [List.forall_mem_append, List.forall_mem_cons] at hclean
  exact ⟨hcondition hclean.2.1, hresult hclean.2.2.2⟩

theorem compositional_prints : Compositional Prints where
  number ht hclean := .number ((hclean _ (by simp)).number ht)
  string _ _ := .string
  null _ _ := .null
  asterisk _ _ := .column (by decide) nofun
  name ht hk hclean := .column ((hclean _ (by simp)).name _ ht hk) nofun
  qualified ht hk _ hu hclean := by
    refine .column ((hclean _ (by simp)).name _ hu rfl) ?_
    rintro _ ⟨⟩
    exact (hclean _ (by simp)).name _ ht hk
  wildcard ht hk _ _ hclean := by
    refine .column (by decide) ?_
    rintro _ ⟨⟩
    exact (hclean _ (by simp)).name _ ht hk
  call ht hk _ _ hvs _ hclean := by
    simp only [List.forall_mem_append, List.forall_mem_cons] at hclean
    refine .call (hclean.1.name _ ht hk) ?_
    cases hvs with
    | absent => nofun
    | present hvs => exact (Prints.separated hclean.2.2.2.1 hvs).2
  caseOf _ hus hvs hne hws _ hclean := by
    simp only [List.forall_mem_append, List.forall_mem_cons] at hclean
    have hbranches := Prints.branches hclean.2.2.1 hvs
    refine .caseOf ?_ hne (fun b hb => (hbranches b hb).1) (fun b hb => (hbranches b hb).2) ?_
    · cases hus with
      | absent => nofun
      | present hus =>
        rintro _ ⟨⟩
        exact hus hclean.2.1
    · cases hws with
      | absent => nofun
      | present _ hws =>
        rintro _ ⟨⟩
        exact hws (List.forall_mem_cons.mp hclean.2.2.2.1).2
  parens _ hus _ hclean := by
    simp only [List.forall_mem_append, List.forall_mem_cons] at hclean
    exact hus hclean.2.1
  unary _ _ h hclean := .unary (h (List.forall_mem_cons.mp hclean).2)
  binary hleft _ hright hclean := by
    rw [List.forall_mem_append, List.forall_mem_cons] at hclean
    exact .binary (hleft hclean.1) (hright hclean.2.2)
  membership hus _ _ _ hvs _ hclean := by
    simp only [List.forall_mem_append, List.forall_mem_cons] at hclean
    obtain ⟨hne, hvalues⟩ := Prints.separated hclean.2.2.2.2.1 hvs
    exact .membership (hus hclean.1) hne hvalues

/-- **An expression that comes from a text is printable.** -/
theorem yields_printable : Phrase.Yields Disjunction Expr.Printable :=
  fun _ _ hclean h => compositional_prints.disjunction h hclean

end Grammar
end QueryPipeline
