import QueryPipeline.Proofs.Phrase
import QueryPipeline.Proofs.Token.Written

/-!
# Writing phrases down

What has been read can be written down again, as tokens.  `Renders P ts a` says that the tokens `ts`
write `a` down as a phrase of `P`: they are legible, and wherever they are put, they are such a
phrase.  So to write them with blanks between them and to scan the text gives the phrase back.

The ways in which phrases are built (`Phrase.Flag`, `After`, `Behind`, `Separated`) each have a way
of writing, with a lemma that says that it renders.
-/

namespace QueryPipeline

/-! ## Keywords -/

namespace Keyword

/-- The names are in capitals; this is checked on the list of all keywords, and so are the two facts
below. -/
theorem upper_name (w : Keyword) : Text.upper w.name = w.name := by
  have h : ∀ w ∈ all, Text.upper w.name = w.name := by decide +kernel
  exact h w (mem_all w)

theorem ofName?_name (w : Keyword) : ofName? w.name = some w := by
  have h : ∀ w ∈ all, ofName? w.name = some w := by decide +kernel
  exact h w (mem_all w)

theorem isWord_name (w : Keyword) : Token.IsWord w.name.toList := by
  have hne : ∀ w ∈ all, w.name.toList ≠ [] := by decide +kernel
  have hall : ∀ w ∈ all, w.name.toList.all Scanner.isWordStart = true := by decide +kernel
  have hstart : ∀ c ∈ w.name.toList, Scanner.isWordStart c = true :=
    List.all_eq_true.1 (hall w (mem_all w))
  refine ⟨fun c hc => hstart c (List.mem_of_mem_head? hc), hne w (mem_all w), fun c hc => ?_⟩
  rw [Scanner.isWordChar, hstart c hc, Bool.true_or]

end Keyword

namespace Token

/-! ## Tokens of words and marks -/

/-- A name as a token; it is written between double quotes. -/
def ofName (name : String) : Token :=
  ⟨.identifier, name, 0⟩

def ofKeyword (w : Keyword) : Token :=
  ⟨.keyword, w.name, 0⟩

def ofMark : Mark → Token
  | .lparen => ⟨.punctuation, "(", 0⟩
  | .rparen => ⟨.punctuation, ")", 0⟩
  | .comma => ⟨.punctuation, ",", 0⟩
  | .semicolon => ⟨.punctuation, ";", 0⟩
  | .dot => ⟨.punctuation, ".", 0⟩

theorem kind?_ofKeyword (w : Keyword) : (ofKeyword w).kind? = some (.keyword w) := by
  show some (Kind.ofName (Text.upper w.name)) = _
  rw [w.upper_name, Kind.ofName_of_keyword w.ofName?_name]

theorem kind?_ofMark (m : Mark) : (ofMark m).kind? = some (.mark m) := by
  cases m <;> rfl

theorem legible_ofKeyword (w : Keyword) : (ofKeyword w).Legible := by
  show IsWord w.name.toList ∧ (Keyword.ofName? (Text.upper w.name)).isSome = true
  rw [w.upper_name, w.ofName?_name]
  exact ⟨w.isWord_name, rfl⟩

theorem legible_ofMark (m : Mark) : (ofMark m).Legible := by
  cases m <;> rfl

/-! ## Ways of writing -/

/-- A word that is there or not. -/
def flag (w : Keyword) (b : Bool) : List Token :=
  if b then [ofKeyword w] else []

/-- A word and what stands behind it, or nothing. -/
def clause (w : Keyword) (ts : Option (List Token)) : List Token :=
  ts.elim [] (ofKeyword w :: ·)

/-- Several parts with marks between them. -/
def listed (m : Mark) : List (List Token) → List Token
  | [] => []
  | [ts] => ts
  | ts :: us :: rest => ts ++ ofMark m :: listed m (us :: rest)

/-- Something in parentheses. -/
def enclosed (ts : List Token) : List Token :=
  ofMark .lparen :: (ts ++ [ofMark .rparen])

end Token

/-- Tokens write something down as a phrase. -/
structure Renders {α : Type} (P : Phrase α) (ts : List Token) (a : α) : Prop where
  legible : ∀ t ∈ ts, t.Legible
  phrase : ∀ place, P (Token.placed place ts) a

namespace Renders

variable {α β : Type} {P : Phrase α} {ts : List Token} {a : α}

theorem mono {Q : Phrase β} {b : β} (h : Renders P ts a) (hPQ : ∀ us, P us a → Q us b) :
    Renders Q ts b :=
  ⟨h.legible, fun place => hPQ _ (h.phrase place)⟩

theorem flag (w : Keyword) (b : Bool) :
    Renders (Phrase.Flag (.keyword w)) (Token.flag w b) b := by
  cases b with
  | false => exact ⟨nofun, fun _ => .absent⟩
  | true =>
    refine ⟨?_, fun _ => .present (Token.kind?_ofKeyword w)⟩
    exact List.forall_mem_singleton.mpr (Token.legible_ofKeyword w)

theorem behind (h : Renders P ts a) (w : Keyword) :
    Renders (Phrase.Behind (.keyword w) P) (Token.ofKeyword w :: ts) a := by
  refine ⟨List.forall_mem_cons.mpr ⟨Token.legible_ofKeyword w, h.legible⟩, fun place => ?_⟩
  exact .mk (Token.kind?_ofKeyword w) (h.phrase _)

theorem clause {f : α → List Token} {o : Option α} (h : ∀ a ∈ o, Renders P (f a) a) (w : Keyword) :
    Renders (Phrase.After (.keyword w) P) (Token.clause w (o.map f)) o := by
  cases o with
  | none => exact ⟨nofun, fun _ => .absent⟩
  | some a =>
    obtain ⟨hlegible, hphrase⟩ := h a rfl
    refine ⟨List.forall_mem_cons.mpr ⟨Token.legible_ofKeyword w, hlegible⟩, fun place => ?_⟩
    exact .present (Token.kind?_ofKeyword w) (hphrase _)

/-- A list whose phrases depend on what stands behind them. -/
theorem listedBefore {P : Option Kind → Phrase α} {next : Option Kind} {f : α → List Token}
    (m : Mark) : ∀ {as : List α}, as ≠ [] → (∀ a ∈ as, ∀ k, Renders (P k) (f a) a) →
      Renders (Phrase.SeparatedBefore (.mark m) P next) (Token.listed m (as.map f)) as := by
  intro as
  induction as with
  | nil =>
    intro hne
    exact absurd rfl hne
  | cons a as ih =>
    intro _ h
    have ha := h a (by simp)
    cases as with
    | nil => exact ⟨(ha next).legible, fun place => .one ((ha next).phrase place)⟩
    | cons b rest =>
      obtain ⟨hlegible, hphrase⟩ := ih (by simp) fun c hc => h c (by simp [hc])
      rw [List.map_cons] at hlegible hphrase ⊢
      rw [List.map_cons, Token.listed]
      refine ⟨?_, fun place => ?_⟩
      · rw [List.forall_mem_append, List.forall_mem_cons]
        exact ⟨(ha next).legible, Token.legible_ofMark m, hlegible⟩
      · rw [Token.placed_append, Token.placed_cons]
        exact .more ((ha _).phrase _) (Token.kind?_ofMark m) (hphrase _)

theorem listed {f : α → List Token} (m : Mark) {as : List α} (hne : as ≠ [])
    (h : ∀ a ∈ as, Renders P (f a) a) :
    Renders (Phrase.Separated (.mark m) P) (Token.listed m (as.map f)) as := by
  have hbefore : Renders (Phrase.SeparatedBefore (.mark m) (fun _ => P) none)
      (Token.listed m (as.map f)) as := listedBefore m hne fun a ha _ => h a ha
  exact ⟨hbefore.legible, fun place => (hbefore.phrase place).separated⟩

theorem legible_enclosed (h : ∀ t ∈ ts, t.Legible) : ∀ t ∈ Token.enclosed ts, t.Legible := by
  rw [Token.enclosed, List.forall_mem_cons, List.forall_mem_append, List.forall_mem_singleton]
  exact ⟨Token.legible_ofMark _, h, Token.legible_ofMark _⟩

end Renders
end QueryPipeline
