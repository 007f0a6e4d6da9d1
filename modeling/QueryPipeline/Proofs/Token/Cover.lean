import Mathlib.Data.List.Forall2
import QueryPipeline.Proofs.Token.Written

/-!
# Tokens cover their text

Each token of a text has a stretch of it, which starts at the position of the token.  The stretches
stand one behind the other, and what lies outside of them is white space: nothing of the text is
left out, and nothing is read twice.

A text is covered from its end to its start, along its layout: behind the last character nothing is
to be covered, and white space or the span of a token in front keeps the text covered.
-/

namespace QueryPipeline

/-- Some characters at a place in a text. -/
structure Stretch where
  start : Nat
  chars : List Char

namespace Stretch

def stop (s : Stretch) : Nat :=
  s.start + s.chars.length

def Contains (s : Stretch) (i : Nat) : Prop :=
  s.start ≤ i ∧ i < s.stop

end Stretch

/-- The token stands in the text at the stretch. -/
structure Token.Occupies (text : List Char) (t : Token) (s : Stretch) : Prop where
  position : t.position = s.start
  nonempty : s.chars ≠ []
  spans : ∃ rest, text.drop s.start = s.chars ++ rest ∧ t.Spans s.chars rest

/-- **From a place on, a text is covered** by the stretches of some tokens: they are in order, none
begins before another ends, and each character outside of them is white space. -/
structure Covered (text : List Char) (place : Nat) (us : List Token) (ss : List Stretch) :
    Prop where
  occupied : List.Forall₂ (Token.Occupies text) us ss
  behind : ∀ s ∈ ss, place ≤ s.start
  apart : ss.Pairwise (·.stop ≤ ·.start)
  outside : ∀ i c, place ≤ i → text[i]? = some c → (∀ s ∈ ss, ¬s.Contains i) →
    Text.isBlank c = true

namespace Covered

variable {text : List Char} {place : Nat} {us : List Token} {ss : List Stretch}

theorem nil (h : text.length ≤ place) : Covered text place [] [] where
  occupied := .nil
  behind := nofun
  apart := .nil
  outside i c hi hc := by
    obtain ⟨hlt, _⟩ := List.getElem?_eq_some_iff.mp hc
    omega

theorem blank {c : Char} (hc : text[place]? = some c) (hblank : Text.isBlank c = true)
    (h : Covered text (place + 1) us ss) : Covered text place us ss where
  occupied := h.occupied
  behind s hs := Nat.le_of_succ_le (h.behind s hs)
  apart := h.apart
  outside i d hi hd hout := by
    rcases Nat.eq_or_lt_of_le hi with rfl | hlt
    · rw [hc] at hd
      cases hd
      exact hblank
    · exact h.outside i d hlt hd hout

theorem token {t : Token} {span rest : List Char} (hspan : t.Spans span rest)
    (hposition : t.position = place) (htext : text.drop place = span ++ rest)
    (h : Covered text (place + span.length) us ss) :
    Covered text place (t :: us) (⟨place, span⟩ :: ss) where
  occupied := .cons ⟨hposition, hspan.ne_nil, rest, htext, hspan⟩ h.occupied
  behind := by
    refine List.forall_mem_cons.mpr ⟨Nat.le_refl place, fun s hs => ?_⟩
    have hle := h.behind s hs
    omega
  apart := List.pairwise_cons.mpr ⟨h.behind, h.apart⟩
  outside i c hi hc hout := by
    obtain ⟨hfirst, hrest⟩ := List.forall_mem_cons.mp hout
    have hbehind : place + span.length ≤ i := by
      rcases Nat.lt_or_ge i (place + span.length) with hlt | hge
      · exact absurd ⟨hi, hlt⟩ hfirst
      · exact hge
    exact h.outside i c hbehind hc hrest

end Covered

/-- A text that is laid out is covered, and the end stands behind its last character. -/
theorem Scanner.Laid.covered {text : List Char} {place : Nat} {cs : List Char} {ts : List Token}
    (h : Laid place cs ts) (hplace : place ≤ text.length) (htext : text.drop place = cs) :
    ∃ us ss, ts = us ++ [Token.endOfText text.length] ∧ (∀ u ∈ us, u.Legible) ∧
      Covered text place us ss := by
  induction h with
  | done place =>
    have hlength : text.length ≤ place := List.drop_eq_nil_iff.mp htext
    obtain rfl : place = text.length := Nat.le_antisymm hplace hlength
    exact ⟨[], [], rfl, nofun, .nil hlength⟩
  | @blank place c cs ts hblank _ ih =>
    have hc : text[place]? = some c := by
      rw [← List.head?_drop, htext]
      rfl
    obtain ⟨hlt, _⟩ := List.getElem?_eq_some_iff.mp hc
    have hdrop : text.drop (place + 1) = cs := by
      rw [← List.tail_drop, htext]
      rfl
    obtain ⟨us, ss, heq, hlegible, hcovered⟩ := ih hlt hdrop
    exact ⟨us, ss, heq, hlegible, hcovered.blank hc hblank⟩
  | @token place t span rest ts hspan hposition _ ih =>
    have hlength := congrArg List.length htext
    rw [List.length_drop, List.length_append] at hlength
    have hdrop : text.drop (place + span.length) = rest := by
      rw [← List.drop_drop, htext, List.drop_left]
    obtain ⟨us, ss, rfl, hlegible, hcovered⟩ := ih (by omega) hdrop
    exact ⟨t :: us, ⟨place, span⟩ :: ss, rfl, List.forall_mem_cons.mpr ⟨hspan.legible, hlegible⟩,
      hcovered.token hspan hposition htext⟩

/-- **The tokens of a text cover it exactly**, each as far as it goes.  The end is the last token,
it stands behind the text, and there is no other; the other tokens have stretches of the text in
order, between which there is nothing but white space. -/
theorem tokenize_covered {text : String} {tokens : List Token} (h : tokenize text = .ok tokens) :
    ∃ us ss, tokens = us ++ [Token.endOfText text.length] ∧ (∀ u ∈ us, u.kind? ≠ some .eof) ∧
      Covered text.toList 0 us ss := by
  obtain ⟨us, ss, heq, hlegible, hcovered⟩ :=
    (tokenize_ok_iff.mp h).covered (Nat.zero_le _) List.drop_zero
  rw [String.length_toList] at heq
  refine ⟨us, ss, heq, fun u hu hend => ?_, hcovered⟩
  obtain ⟨k, hk, hne⟩ := (hlegible u hu).exists_kind
  exact hne (Option.some.inj (hk.symm.trans hend))

/-- A keyword in mixed case, a word next to an operator, a second point, an escaped quote, and a
name in quotes that is spelled like a keyword. -/
theorem tokenize_covered_mixed :
    let text := "seLect a_1<>1.5.2 'it\\'s'\t\"from\""
    let tokens : List Token :=
      [⟨.keyword, "seLect", 0⟩, ⟨.identifier, "a_1", 7⟩, ⟨.operator, "<>", 10⟩,
       ⟨.number, "1.5", 12⟩, ⟨.punctuation, ".", 15⟩, ⟨.number, "2", 16⟩, ⟨.string, "it's", 18⟩,
       ⟨.identifier, "from", 26⟩, ⟨.eof, "", 32⟩]
    tokenize text = .ok tokens ∧ (∀ u ∈ tokens.dropLast, u.kind? ≠ some .eof) ∧
      ∃ ss, Covered text.toList 0 tokens.dropLast ss := by
  intro text tokens
  have htokens : tokenize text = .ok tokens := by decide +kernel
  obtain ⟨us, ss, heq, hkinds, hcovered⟩ := tokenize_covered htokens
  obtain rfl : us = tokens.dropLast := by rw [heq, List.dropLast_concat]
  exact ⟨htokens, hkinds, ss, hcovered⟩

end QueryPipeline
