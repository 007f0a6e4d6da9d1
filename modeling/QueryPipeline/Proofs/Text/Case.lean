import Mathlib.Data.List.DropRight
import QueryPipeline.Text.Blank
import QueryPipeline.Text.Case

/-!
# Small letters

Two things hold of the small letters of a text.  To write them twice changes nothing, and white
space at the ends may be cut before or after:

    lower (lower s) = lower s        trim (lower s) = lower (trim s)

For a single character both are read off the tables (`lowerChar_cases`): a form that is not the
character itself has no other form again, and is no white space.  The tables are compared run by run
and not character by character.  The small sigma looks at the characters around it, and there white
space ends a word just as the end of the text does (`wordGoesOn_append`).
-/

namespace QueryPipeline.Text

/-! ## Runs -/

/-- The code points from `first` to `last` are outside of an interval. -/
def outside (first last : Nat) (r : Nat × Nat) : Bool :=
  Nat.blt last r.1 || Nat.blt r.2 first

theorem not_inRanges {ranges : List (Nat × Nat)} {first last n : Nat}
    (h : ranges.all (outside first last) = true) (hfirst : first ≤ n) (hlast : n ≤ last) :
    inRanges ranges n = false := by
  rw [← Bool.not_eq_true]
  intro hn
  obtain ⟨r, hr, hlo, hhi⟩ := exists_of_inRanges hn
  have hout := List.all_eq_true.1 h r hr
  simp only [outside, Bool.or_eq_true, Nat.blt_eq] at hout
  omega

namespace CaseRun

def lastImage (r : CaseRun) : Nat :=
  r.image + (r.last - r.first)

/-- A run has the form `m` for the code point `n`. -/
structure Moves (r : CaseRun) (n m : Nat) : Prop where
  first_le : r.first ≤ n
  le_last : n ≤ r.last
  step : (n - r.first) % r.step = 0
  image : m = r.image + (n - r.first)

theorem Moves.image_le {r : CaseRun} {n m : Nat} (h : r.Moves n m) :
    r.image ≤ m ∧ m ≤ r.lastImage := by
  obtain ⟨hfirst, hlast, -, himage⟩ := h
  rw [lastImage]
  omega

/-- No form of `r` is a code point of `s`: all of them lie before or behind `s`, or `s` takes every
second code point and they lie between. -/
def avoids (r s : CaseRun) : Bool :=
  Nat.blt r.lastImage s.first || Nat.blt s.last r.image ||
    (s.step.beq 2 && (r.step.beq 2 || r.first.beq r.last) && ((r.image + s.first) % 2).beq 1)

theorem Moves.not_moves {r s : CaseRun} {n m k : Nat} (h : r.Moves n m)
    (havoids : r.avoids s = true) : ¬ s.Moves m k := by
  intro hs
  have hrange := h.image_le
  obtain ⟨hfirst, hlast, hstep, himage⟩ := h
  obtain ⟨hfirst', hlast', hstep', -⟩ := hs
  simp only [avoids, Bool.or_eq_true, Bool.and_eq_true, Nat.blt_eq, Nat.beq_eq] at havoids
  rcases havoids with (hbefore | hbehind) | ⟨⟨htwo, hshape⟩, hodd⟩
  · omega
  · omega
  · rw [htwo] at hstep'
    rcases hshape with htwo | hsingle
    · rw [htwo] at hstep
      omega
    · omega

end CaseRun

theorem shiftBy_cases (runs : List CaseRun) (n : Nat) :
    shiftBy runs n = n ∨ ∃ r ∈ runs, r.Moves n (shiftBy runs n) := by
  induction runs with
  | nil => exact .inl rfl
  | cons r rest ih =>
    rw [shiftBy]
    split
    · exact .inl rfl
    next hfirst =>
      split
      next hcovers =>
        simp only [CaseRun.covers, Bool.and_eq_true, decide_eq_true_eq] at hcovers
        exact .inr ⟨r, List.mem_cons_self, by omega, hcovers.1, hcovers.2, rfl⟩
      next =>
        refine ih.imp_right ?_
        rintro ⟨s, hs, hmoves⟩
        exact ⟨s, List.mem_cons_of_mem r hs, hmoves⟩

/-! ## Forms of a character -/

/-- A character that lower case leaves as it is, wherever it stands. -/
structure IsSettled (c : Char) : Prop where
  lowerChar_eq : lowerChar c = [c]
  ne_sigma : c ≠ 'Σ'

/-- The code points that no small form may be: those with a form that is spelled out, the sigma, and
those of no character. -/
def reserved : List (Nat × Nat) :=
  [(0x130, 0x130), (0x3a3, 0x3a3), (0xd800, 0xdfff)]

/-- What lower case needs to know of a run: its forms have no forms again, and neither they nor the
code points of the run are white space. -/
def isLowerRun (r : CaseRun) : Bool :=
  lowerRuns.all r.avoids && reserved.all (outside r.image r.lastImage) &&
    Nat.blt r.lastImage 0x110000 && blankRanges.all (outside r.first r.last) &&
    blankRanges.all (outside r.image r.lastImage)

theorem isLowerRun_of_mem {r : CaseRun} (h : r ∈ lowerRuns) : isLowerRun r = true := by
  have hall : lowerRuns.all isLowerRun = true := by decide +kernel
  exact List.all_eq_true.1 hall r h

theorem toNat_ofNat {n : Nat} (h : n.isValidChar) : (Char.ofNat n).toNat = n := by
  rw [Char.ofNat, dif_pos h]
  rfl

theorem lowerChar_eq_shiftBy {c : Char} (h : c.toNat ≠ 0x130) :
    lowerChar c = [Char.ofNat (shiftBy lowerRuns c.toNat)] := by
  have hnone : spelling? lowerSpelled c.toNat = none := by
    rw [lowerSpelled, spelling?, spelling?, if_neg h, ite_self]
  rw [lowerChar, caseForm, hnone]

/-- The form that a run gives has no other form, and is no white space. -/
theorem isSettled_of_moves {r : CaseRun} (hr : r ∈ lowerRuns) {n m : Nat} (h : r.Moves n m) :
    IsSettled (Char.ofNat m) ∧ isBlank (Char.ofNat m) = false := by
  have hrun := isLowerRun_of_mem hr
  simp only [isLowerRun, reserved, Bool.and_eq_true, List.all_cons, outside, Bool.or_eq_true,
    Nat.blt_eq] at hrun
  obtain ⟨⟨⟨⟨havoids, hspelled, hsigma, hsurrogate, -⟩, hchar⟩, -⟩, hblank⟩ := hrun
  obtain ⟨hfirst, hlast⟩ := h.image_le
  have hm : (Char.ofNat m).toNat = m := by
    refine toNat_ofNat ?_
    rw [Nat.isValidChar]
    omega
  refine ⟨⟨?_, fun hc => ?_⟩, ?_⟩
  · rw [lowerChar_eq_shiftBy (by omega), hm]
    rcases shiftBy_cases lowerRuns m with hself | ⟨s, hs, hmoves⟩
    · rw [hself]
    · exact absurd hmoves (h.not_moves (List.all_eq_true.1 havoids s hs))
  · rw [hc] at hm
    change 0x3a3 = m at hm
    omega
  · rw [isBlank, hm]
    exact not_inRanges hblank hfirst hlast

/-- The two characters that a capital with a dot is spelled by. -/
theorem isSettled_spelled {d : Char} (h : d ∈ lowerChar 'İ') :
    IsSettled d ∧ isBlank d = false := by
  have hspelled : lowerChar 'İ' = ['i', Char.ofNat 0x307] := by decide +kernel
  rw [hspelled, List.mem_cons, List.mem_singleton] at h
  rcases h with rfl | rfl
  · exact ⟨⟨by decide +kernel, by decide⟩, by decide⟩
  · exact ⟨⟨by decide +kernel, by decide⟩, by decide⟩

/-- A character has no small form but itself, or it is no white space, and nor is its form, which
has no other form again. -/
theorem lowerChar_cases (c : Char) : lowerChar c = [c] ∨ isBlank c = false ∧ lowerChar c ≠ [] ∧
    ∀ d ∈ lowerChar c, IsSettled d ∧ isBlank d = false := by
  by_cases hc : c.toNat = 0x130
  · obtain rfl : c = 'İ' := Char.toNat_inj.1 hc
    exact .inr ⟨by decide, by decide +kernel, fun d => isSettled_spelled⟩
  · rw [lowerChar_eq_shiftBy hc]
    rcases shiftBy_cases lowerRuns c.toNat with hself | ⟨r, hr, hmoves⟩
    · rw [hself, Char.ofNat_toNat]
      exact .inl rfl
    · have hrun := isLowerRun_of_mem hr
      simp only [isLowerRun, Bool.and_eq_true] at hrun
      refine .inr ⟨not_inRanges hrun.1.2 hmoves.first_le hmoves.le_last, List.cons_ne_nil _ _, ?_⟩
      exact List.forall_mem_singleton.2 (isSettled_of_moves hr hmoves)

/-- So it is with the sigma, whatever stands around it. -/
theorem lowerBetween_cases (before : List Char) (c : Char) (after : List Char) :
    (lowerBetween before c after = [c] ∧ IsSettled c) ∨
      isBlank c = false ∧ lowerBetween before c after ≠ [] ∧
        ∀ d ∈ lowerBetween before c after, IsSettled d ∧ isBlank d = false := by
  rw [lowerBetween]
  by_cases hc : c = 'Σ'
  · have hforms : ∀ b : Bool, IsSettled (if b then 'ς' else 'σ') ∧
        isBlank (if b then 'ς' else 'σ') = false := by
      rintro (_ | _)
      · exact ⟨⟨by decide +kernel, by decide⟩, by decide⟩
      · exact ⟨⟨by decide +kernel, by decide⟩, by decide⟩
    rw [if_pos hc, hc]
    exact .inr ⟨by decide, List.cons_ne_nil _ _, List.forall_mem_singleton.2 (hforms _)⟩
  · rw [if_neg hc]
    exact (lowerChar_cases c).imp_left fun h => ⟨h, h, hc⟩

section Between

variable (before after : List Char) {c : Char}

theorem isSettled_of_mem {d : Char} (h : d ∈ lowerBetween before c after) : IsSettled d := by
  rcases lowerBetween_cases before c after with ⟨hself, hc⟩ | ⟨-, -, hall⟩
  · rw [hself, List.mem_singleton] at h
    rwa [h]
  · exact (hall d h).1

theorem IsSettled.lowerBetween_eq (h : IsSettled c) : lowerBetween before c after = [c] := by
  rw [lowerBetween, if_neg h.ne_sigma, h.lowerChar_eq]

theorem lowerBetween_of_isBlank (h : isBlank c = true) : lowerBetween before c after = [c] := by
  rcases lowerBetween_cases before c after with ⟨hself, -⟩ | ⟨hc, -⟩
  · exact hself
  · rw [h] at hc
    cases hc

theorem lowerBetween_of_not_isBlank (h : isBlank c = false) :
    lowerBetween before c after ≠ [] ∧ ∀ d ∈ lowerBetween before c after, isBlank d = false := by
  rcases lowerBetween_cases before c after with ⟨hself, -⟩ | ⟨-, hne, hall⟩
  · rw [hself]
    exact ⟨List.cons_ne_nil _ _, List.forall_mem_singleton.2 h⟩
  · exact ⟨hne, fun d hd => (hall d hd).2⟩

end Between

/-! ## Small letters of small letters -/

theorem isSettled_lowerFrom (before cs : List Char) : ∀ d ∈ lowerFrom before cs, IsSettled d := by
  induction cs generalizing before with
  | nil => exact List.forall_mem_nil _
  | cons c rest ih =>
    intro d hd
    rw [lowerFrom, List.mem_append] at hd
    rcases hd with hd | hd
    · exact isSettled_of_mem before rest hd
    · exact ih (c :: before) d hd

theorem lowerFrom_of_isSettled (before : List Char) {cs : List Char}
    (h : ∀ c ∈ cs, IsSettled c) : lowerFrom before cs = cs := by
  induction cs generalizing before with
  | nil => rfl
  | cons c rest ih =>
    obtain ⟨hc, hrest⟩ := List.forall_mem_cons.1 h
    rw [lowerFrom, hc.lowerBetween_eq, ih _ hrest]
    rfl

theorem lower_lower (s : String) : lower (lower s) = lower s := by
  rw [lower, lower, String.toList_ofList, lowerFrom_of_isSettled [] (isSettled_lowerFrom [] _)]

/-! ## White space and words -/

/-- Characters that begin with white space, or none at all. -/
def Breaks (cs : List Char) : Prop :=
  ∀ c ∈ cs.head?, isBlank c = true

theorem Breaks.nil : Breaks [] :=
  fun _ hc => nomatch hc

theorem Breaks.cons {c : Char} (h : isBlank c = true) (cs : List Char) : Breaks (c :: cs) := by
  rintro d ⟨⟩
  exact h

/-- White space is no part of a word. -/
theorem not_word_of_isBlank {c : Char} (h : isBlank c = true) :
    isCased c = false ∧ isCaseIgnorable c = false := by
  have hall : (blankRanges.all fun r => casedRanges.all (outside r.1 r.2) &&
      caseIgnorableRanges.all (outside r.1 r.2)) = true := by decide +kernel
  obtain ⟨r, hr, hfirst, hlast⟩ := exists_of_inRanges h
  have hout := List.all_eq_true.1 hall r hr
  rw [Bool.and_eq_true] at hout
  exact ⟨not_inRanges hout.1 hfirst hlast, not_inRanges hout.2 hfirst hlast⟩

/-- A word ends at white space as it does at the end. -/
theorem wordGoesOn_append (cs : List Char) {ds : List Char} (h : Breaks ds) :
    wordGoesOn (cs ++ ds) = wordGoesOn cs := by
  induction cs with
  | nil =>
    cases ds with
    | nil => rfl
    | cons d ds =>
      obtain ⟨hcased, hignorable⟩ := not_word_of_isBlank (h d rfl)
      rw [List.nil_append, wordGoesOn, List.dropWhile_cons_of_neg (by simp [hignorable])]
      exact hcased
  | cons c cs ih =>
    by_cases hc : isCaseIgnorable c = true
    · rw [wordGoesOn, wordGoesOn, List.cons_append, List.dropWhile_cons_of_pos hc,
        List.dropWhile_cons_of_pos hc]
      exact ih
    · rw [wordGoesOn, wordGoesOn, List.cons_append, List.dropWhile_cons_of_neg hc,
        List.dropWhile_cons_of_neg hc]
      rfl

/-- What stands behind white space does not depend on what stands before it. -/
theorem lowerFrom_behind {before : List Char} (h : Breaks before) (cs near : List Char) :
    lowerFrom (near ++ before) cs = lowerFrom near cs := by
  induction cs generalizing near with
  | nil => rfl
  | cons c rest ih =>
    have hstep := ih (c :: near)
    rw [List.cons_append] at hstep
    rw [lowerFrom, lowerFrom, hstep, lowerBetween, lowerBetween, wordEnds, wordEnds,
      wordGoesOn_append near h]

/-- And the other way round. -/
theorem lowerFrom_append {ds : List Char} (h : Breaks ds) (before cs : List Char) :
    lowerFrom before (cs ++ ds) = lowerFrom before cs ++ lowerFrom (cs.reverse ++ before) ds := by
  induction cs generalizing before with
  | nil => rfl
  | cons c rest ih =>
    rw [List.cons_append, lowerFrom, lowerFrom, ih, List.append_assoc, List.reverse_cons,
      List.append_assoc, List.singleton_append, lowerBetween, lowerBetween, wordEnds, wordEnds,
      wordGoesOn_append rest h]

/-! ## White space at the ends -/

theorem trimStart_lowerFrom {before : List Char} (h : Breaks before) (cs : List Char) :
    trimStart (lowerFrom before cs) = lowerFrom [] (trimStart cs) := by
  induction cs generalizing before with
  | nil => rfl
  | cons c rest ih =>
    cases hc : isBlank c with
    | true =>
      rw [lowerFrom, lowerBetween_of_isBlank before rest hc, trimStart, trimStart,
        List.singleton_append, List.dropWhile_cons_of_pos hc, List.dropWhile_cons_of_pos hc]
      exact ih (.cons hc before)
    | false =>
      obtain ⟨hne, hall⟩ := lowerBetween_of_not_isBlank before rest hc
      obtain ⟨d, ds, hds⟩ := List.exists_cons_of_ne_nil hne
      have hd : ¬ isBlank d = true := by simp [hall d (hds ▸ List.mem_cons_self)]
      have hbehind := lowerFrom_behind h (c :: rest) []
      rw [List.nil_append] at hbehind
      have hkeep : trimStart (lowerFrom before (c :: rest)) = lowerFrom before (c :: rest) := by
        rw [lowerFrom, hds, trimStart, List.cons_append, List.dropWhile_cons_of_neg hd]
      rw [hkeep, hbehind, trimStart, List.dropWhile_cons_of_neg (by simp [hc])]

/-- The last character of a text is written last. -/
theorem lowerFrom_concat (before cs : List Char) (c : Char) :
    ∃ ds, lowerFrom before (cs ++ [c]) = ds ++ lowerBetween (cs.reverse ++ before) c [] := by
  induction cs generalizing before with
  | nil => exact ⟨[], by rw [List.nil_append, lowerFrom, lowerFrom, List.append_nil]; rfl⟩
  | cons d rest ih =>
    obtain ⟨ds, hds⟩ := ih (d :: before)
    refine ⟨lowerBetween before d (rest ++ [c]) ++ ds, ?_⟩
    rw [List.cons_append, lowerFrom, hds, List.append_assoc, List.reverse_cons, List.append_assoc,
      List.singleton_append]

theorem trimEnd_append {cs ds : List Char} (hne : ds ≠ []) (hds : ∀ d ∈ ds, isBlank d = false) :
    trimEnd (cs ++ ds) = cs ++ ds := by
  refine List.rdropWhile_eq_self_iff.2 fun hl => ?_
  rw [List.getLast_append_of_ne_nil hl hne, hds _ (List.getLast_mem hne)]
  exact Bool.false_ne_true

theorem trimEnd_lowerFrom (before cs : List Char) :
    trimEnd (lowerFrom before cs) = lowerFrom before (trimEnd cs) := by
  induction cs using List.reverseRecOn with
  | nil => rfl
  | append_singleton cs c ih =>
    cases hc : isBlank c with
    | true =>
      have hlast : lowerFrom before (cs ++ [c]) = lowerFrom before cs ++ [c] := by
        rw [lowerFrom_append (.cons hc []), lowerFrom, lowerBetween_of_isBlank _ _ hc]
        rfl
      have hcut : ∀ ds : List Char, trimEnd (ds ++ [c]) = trimEnd ds := fun ds =>
        List.rdropWhile_concat_pos _ _ _ hc
      rw [hlast, hcut, hcut, ih]
    | false =>
      obtain ⟨ds, hds⟩ := lowerFrom_concat before cs c
      obtain ⟨hne, hall⟩ := lowerBetween_of_not_isBlank (cs.reverse ++ before) [] hc
      rw [trimEnd_append (List.cons_ne_nil c []) (List.forall_mem_singleton.2 hc), hds,
        trimEnd_append hne hall]

theorem trim_lower (s : String) : trim (lower s) = lower (trim s) := by
  rw [trim, trim, lower, lower, String.toList_ofList, String.toList_ofList,
    trimStart_lowerFrom .nil, trimEnd_lowerFrom]

theorem trimEnd_cons {c : Char} (hc : isBlank c = false) (cs : List Char) :
    trimEnd (c :: cs) = c :: trimEnd cs := by
  rw [trimEnd, trimEnd, List.reverse_cons, List.dropWhile_append]
  split
  next hnil =>
    rw [List.dropWhile_cons_of_neg (by simp [hc]), List.isEmpty_iff.1 hnil]
    rfl
  next => rw [List.reverse_append]; rfl

theorem trim_trim (s : String) : trim (trim s) = trim s := by
  have hstart : trimStart (trimEnd (trimStart s.toList)) = trimEnd (trimStart s.toList) := by
    cases hcs : trimStart s.toList with
    | nil => rfl
    | cons c cs =>
      have hc : isBlank c = false := by
        have hnot := List.head?_dropWhile_not isBlank s.toList
        rw [← trimStart, hcs] at hnot
        simpa using hnot
      rw [trimEnd_cons hc, trimStart, List.dropWhile_cons_of_neg (by simp [hc])]
  have hend : trimEnd (trimEnd (trimStart s.toList)) = trimEnd (trimStart s.toList) :=
    List.rdropWhile_idempotent isBlank _
  rw [trim, trim, String.toList_ofList, hstart, hend]

end QueryPipeline.Text
