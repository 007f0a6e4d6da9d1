import QueryPipeline.Proofs.Token.Span

/-!
# Tokens stand in order

A token has the place where it is read, and the place moves behind it.  So the tokens of a text have
increasing positions, the end included, and a position names one token.
-/

namespace QueryPipeline

/-- **Tokens stand in order**, none of them before the place where the layout starts. -/
theorem Scanner.Laid.ordered {place : Nat} {cs : List Char} {ts : List Token}
    (h : Laid place cs ts) :
    (∀ t ∈ ts, (place : Int) ≤ t.position) ∧ ts.Pairwise (·.position < ·.position) := by
  induction h with
  | done place =>
    exact ⟨List.forall_mem_singleton.mpr (Int.le_refl _), List.pairwise_singleton _ _⟩
  | blank _ _ ih =>
    refine ⟨fun t ht => ?_, ih.2⟩
    have hplace := ih.1 t ht
    omega
  | token hspan hposition _ ih =>
    have hlength := List.length_pos_iff.mpr hspan.ne_nil
    refine ⟨List.forall_mem_cons.mpr ⟨Int.le_of_eq hposition.symm, fun u hu => ?_⟩,
      List.pairwise_cons.mpr ⟨fun u hu => ?_, ih.2⟩⟩
    · have hplace := ih.1 u hu
      omega
    · have hplace := ih.1 u hu
      omega

/-- A position names one token of a text. -/
theorem tokenize_position_injective {text : String} {tokens : List Token}
    (h : tokenize text = .ok tokens) {i j : Nat} {s t : Token} (hs : tokens[i]? = some s)
    (ht : tokens[j]? = some t) (hposition : s.position = t.position) : i = j := by
  have hordered := (tokenize_ok_iff.mp h).ordered.2
  obtain ⟨hi, rfl⟩ := List.getElem?_eq_some_iff.mp hs
  obtain ⟨hj, rfl⟩ := List.getElem?_eq_some_iff.mp ht
  rw [List.pairwise_iff_getElem] at hordered
  rcases Nat.lt_trichotomy i j with hlt | heq | hgt
  · have hless := hordered i j hi hj hlt
    omega
  · exact heq
  · have hless := hordered j i hj hi hgt
    omega

end QueryPipeline
