import QueryPipeline.Number.Integer
import QueryPipeline.Proofs.Token.Written

/-!
# Whole numbers in decimal

A text of the digits `0` to `9` is read as the number they stand for, if there are not too many of
them, and is refused otherwise:

    Integer.read_digits

Two such texts stand for one number exactly when they differ in zeros in front
(`Integer.decimal_ofDigitChars`).  The digits of a number are such a text (`Integer.read_intText`).
A number that was read has a text that can be read again, since it does not have more digits than
the text it came from; for texts of any kind the bound is `Integer.length_decimal_of_read`.
-/

namespace QueryPipeline

namespace Integer

/-- A text of decimal digits, one at least. -/
def AreDigits (cs : List Char) : Prop :=
  cs ≠ [] ∧ ∀ c ∈ cs, c.isDigit = true

theorem decimalDigit?_of_isDigit {c : Char} (h : c.isDigit = true) :
    Text.decimalDigit? c = some (c.toNat - '0'.toNat) := by
  obtain ⟨hlo, hhi⟩ := Scanner.isDigit_range h
  have hfind : Text.zeroDigits.find? (fun z => decide (z ≤ c.toNat) && decide (c.toNat < z + 10)) =
      some 0x30 := by
    refine List.find?_cons_of_pos ?_
    simp only [Bool.and_eq_true, decide_eq_true_eq]
    omega
  rw [Text.decimalDigit?, hfind]
  rfl

theorem isDigitOrUnderscore_of_isDigit {c : Char} (h : c.isDigit = true) :
    isDigitOrUnderscore c = true := by
  rw [isDigitOrUnderscore, decimalDigit?_of_isDigit h]
  simp

theorem underscoresFit_of_digits : ∀ {cs : List Char}, AreDigits cs → ∀ b,
    underscoresFit b cs = true := by
  intro cs
  induction cs with
  | nil => intro h; exact absurd rfl h.1
  | cons c cs ih =>
    intro h b
    have hc : c ≠ '_' := by
      rintro rfl
      exact absurd (h.2 '_' (by simp)) (by decide)
    rw [underscoresFit, if_neg hc]
    cases cs with
    | nil => rfl
    | cons d cs => exact ih ⟨by simp, fun e he => h.2 e (by simp [he])⟩ true

/-- The digits of a text as numbers, and what they stand for. -/
theorem ofDigits_filterMap {cs : List Char} (h : ∀ c ∈ cs, c.isDigit = true) :
    (cs.filterMap Text.decimalDigit?).length = cs.length ∧
      Text.ofDigits (cs.filterMap Text.decimalDigit?) = Nat.ofDigitChars 10 cs 0 := by
  have hmap : cs.filterMap Text.decimalDigit? = cs.map fun c => c.toNat - '0'.toNat := by
    induction cs with
    | nil => rfl
    | cons c cs ih =>
      rw [List.forall_mem_cons] at h
      rw [List.filterMap_cons_some (decimalDigit?_of_isDigit h.1), ih h.2, List.map_cons]
  rw [hmap, List.length_map, Text.ofDigits, List.foldl_map, Nat.ofDigitChars]
  exact ⟨rfl, rfl⟩

/-- **Decimal digits are read as the number they stand for**, or refused if there are too many. -/
theorem read_digits {text : String} (h : AreDigits text.toList) :
    read text = if digitLimit < text.toList.length then .error (.tooLong text.toList.length)
      else .ok (Nat.ofDigitChars 10 text.toList 0 : Nat) := by
  obtain ⟨c, cs, heq⟩ := List.exists_cons_of_ne_nil h.1
  have hc : c.isDigit = true := h.2 c (by simp [heq])
  have hpadding : isPadding c = false := by
    have hblank := Scanner.isDigit_range hc
    rw [isPadding, Text.not_isBlank (by omega) (by omega), Bool.false_and]
  have hdrop : text.toList.dropWhile isPadding = text.toList := by
    rw [heq, List.dropWhile_cons_of_neg (by simp [hpadding])]
  have hsign : splitSign text.toList = (false, text.toList) := by
    rw [heq, splitSign]
    · rintro rest ⟨⟩
      exact absurd hc (by decide)
    · rintro rest ⟨⟩
      exact absurd hc (by decide)
  have hall : ∀ d ∈ text.toList, isDigitOrUnderscore d = true :=
    fun d hd => isDigitOrUnderscore_of_isDigit (h.2 d hd)
  obtain ⟨hlength, hvalue⟩ := ofDigits_filterMap h.2
  simp only [read, hdrop, hsign, List.takeWhile_eq_self_iff.mpr hall,
    List.dropWhile_eq_nil_iff.mpr hall, hlength, hvalue, underscoresFit_of_digits h]
  simp

theorem areDigits_decimal (n : Nat) : AreDigits (Text.decimal n) :=
  ⟨Nat.toDigits_ne_nil, fun _ hc => Nat.isDigit_of_mem_toDigits (by decide) (by decide) hc⟩

/-- Digits without the zeros in front; the last zero stays if there is nothing else. -/
def significant (cs : List Char) : List Char :=
  match cs.dropWhile (· == '0') with
  | [] => ['0']
  | d :: ds => d :: ds

/-- Zeros in front make no difference. -/
theorem ofDigitChars_significant (cs : List Char) :
    Nat.ofDigitChars 10 (significant cs) 0 = Nat.ofDigitChars 10 cs 0 := by
  induction cs with
  | nil => rfl
  | cons c cs ih =>
    by_cases hc : c = '0'
    · subst hc
      exact ih
    · rw [significant, List.dropWhile_cons_of_neg (by simpa using hc)]

theorem digitChar_toNat {d : Char} (h : d.isDigit = true) :
    Nat.digitChar (d.toNat - '0'.toNat) = d := by
  obtain ⟨hlo, hhi⟩ := Scanner.isDigit_range h
  have hzero : '0'.toNat = 48 := rfl
  have hall : ∀ n < 10, Nat.digitChar n = Char.ofNat (48 + n) := by decide
  rw [hall _ (by omega), hzero, Nat.add_sub_cancel' hlo, Char.ofNat_toNat]

/-- Digits behind the digits of a number. -/
theorem decimal_ofDigitChars_pos {ds : List Char} (hds : ∀ c ∈ ds, c.isDigit = true) :
    ∀ {n : Nat}, 0 < n → Text.decimal (Nat.ofDigitChars 10 ds n) = Text.decimal n ++ ds := by
  induction ds with
  | nil => intro n _; simp [Nat.ofDigitChars]
  | cons d ds ih =>
    intro n hn
    rw [List.forall_mem_cons] at hds
    obtain ⟨hlo, hhi⟩ := Scanner.isDigit_range hds.1
    have hzero : '0'.toNat = 48 := rfl
    have hlt : d.toNat - '0'.toNat < 10 := by omega
    have hdigit : Nat.toDigits 10 (d.toNat - '0'.toNat) = [d] := by
      rw [Nat.toDigits_of_lt_base hlt, digitChar_toNat hds.1]
    rw [Nat.ofDigitChars_cons, ih hds.2 (by omega), Text.decimal,
      ← Nat.toDigits_append_toDigits (by decide) hn hlt, hdigit, List.append_assoc,
      List.singleton_append, Text.decimal]

/-- **Digits without zeros in front are the decimal digits of the number they stand for.** -/
theorem decimal_ofDigitChars {cs : List Char} (h : AreDigits cs) :
    Text.decimal (Nat.ofDigitChars 10 cs 0) = significant cs := by
  rw [← ofDigitChars_significant]
  unfold significant
  cases hdrop : cs.dropWhile (· == '0') with
  | nil => decide
  | cons d ds =>
    have hmem : ∀ c ∈ d :: ds, c.isDigit = true := by
      intro c hc
      rw [← hdrop] at hc
      exact h.2 c ((List.dropWhile_sublist _).subset hc)
    have hne : d ≠ '0' := by
      have hhead := List.head?_dropWhile_not (· == '0') cs
      rw [hdrop] at hhead
      simpa using hhead
    rw [List.forall_mem_cons] at hmem
    obtain ⟨hlo, hhi⟩ := Scanner.isDigit_range hmem.1
    have hzero : '0'.toNat = 48 := rfl
    have hpos : 0 < d.toNat - '0'.toNat := by
      have : d.toNat ≠ '0'.toNat := fun heq => hne (Char.toNat_inj.mp heq)
      omega
    show Text.decimal (Nat.ofDigitChars 10 (d :: ds) 0) = d :: ds
    rw [Nat.ofDigitChars_cons, Nat.mul_zero, Nat.zero_add, decimal_ofDigitChars_pos hmem.2 hpos,
      Text.decimal, Nat.toDigits_of_lt_base (by omega), digitChar_toNat hmem.1]
    rfl

/-- Digits stand for a number that has no more digits than they are. -/
theorem length_decimal_ofDigitChars {cs : List Char} (h : AreDigits cs) :
    (Text.decimal (Nat.ofDigitChars 10 cs 0)).length ≤ cs.length := by
  have hdrop := (List.dropWhile_sublist (l := cs) (· == '0')).length_le
  rw [decimal_ofDigitChars h, significant]
  split
  · exact List.length_pos_iff.mpr h.1
  · rename_i heq
    rwa [heq] at hdrop

/-- A number that was read from digits can be written down and read again. -/
theorem read_intText {text : String} {i : Int} (h : AreDigits text.toList)
    (hread : read text = .ok i) :
    AreDigits (Text.intText i).toList ∧ read (Text.intText i) = .ok i := by
  rw [read_digits h] at hread
  by_cases hlimit : digitLimit < text.toList.length
  · rw [if_pos hlimit] at hread
    cases hread
  · rw [if_neg hlimit] at hread
    cases hread
    have htext : (Text.intText (Nat.ofDigitChars 10 text.toList 0 : Nat)).toList =
        Text.decimal (Nat.ofDigitChars 10 text.toList 0) := String.toList_ofList
    have hdigits := areDigits_decimal (Nat.ofDigitChars 10 text.toList 0)
    rw [← htext] at hdigits
    refine ⟨hdigits, ?_⟩
    have hlength : (Text.decimal (Nat.ofDigitChars 10 text.toList 0)).length ≤ digitLimit :=
      Nat.le_trans (length_decimal_ofDigitChars h) (Nat.le_of_not_lt hlimit)
    rw [read_digits hdigits, htext, if_neg (Nat.not_lt.mpr hlength), Text.decimal,
      Nat.ofDigitChars_ten_toDigits]

/-! ## The length of a number -/

theorem lt_ten_of_decimalDigit? {c : Char} {d : Nat} (h : Text.decimalDigit? c = some d) :
    d < 10 := by
  obtain ⟨z, hz, rfl⟩ := Option.map_eq_some_iff.1 h
  have hrange := List.find?_some hz
  simp only [Bool.and_eq_true, decide_eq_true_eq] at hrange
  omega

/-- One more digit behind a number. -/
theorem length_decimal_step (n : Nat) {d : Nat} (hd : d < 10) :
    (Text.decimal (10 * n + d)).length ≤ (Text.decimal n).length + 1 := by
  by_cases hn : n = 0
  · subst hn
    rw [Nat.mul_zero, Nat.zero_add, Text.decimal, Nat.toDigits_of_lt_base hd]
    exact Nat.le_add_left _ _
  · rw [Text.decimal, ← Nat.toDigits_append_toDigits (by decide) (Nat.pos_of_ne_zero hn) hd,
      List.length_append, Nat.toDigits_of_lt_base hd]
    exact Nat.le_refl _

theorem length_decimal_ofDigits {ds : List Nat} (h : ∀ d ∈ ds, d < 10) :
    (Text.decimal (Text.ofDigits ds)).length ≤ max 1 ds.length := by
  have hrun : ∀ (ds : List Nat) (n : Nat), (∀ d ∈ ds, d < 10) →
      (Text.decimal (ds.foldl (fun n d => 10 * n + d) n)).length ≤
        (Text.decimal n).length + ds.length := by
    intro ds
    induction ds with
    | nil => exact fun n _ => Nat.le_refl _
    | cons d ds ih =>
      intro n hall
      rw [List.forall_mem_cons] at hall
      have hstep := length_decimal_step n hall.1
      have hrest := ih (10 * n + d) hall.2
      rw [List.foldl_cons, List.length_cons]
      omega
  cases ds with
  | nil => decide
  | cons d ds =>
    rw [List.forall_mem_cons] at h
    have hrest := hrun ds (10 * 0 + d) h.2
    have hfirst : (Text.decimal (10 * 0 + d)).length = 1 := by
      rw [Nat.mul_zero, Nat.zero_add, Text.decimal, Nat.toDigits_of_lt_base h.1]
      rfl
    rw [Text.ofDigits, List.foldl_cons, List.length_cons]
    omega

/-- A number that was read has no more digits than can be read. -/
theorem length_decimal_of_read {text : String} {i : Int} (h : read text = .ok i) :
    (Text.decimal i.natAbs).length ≤ digitLimit := by
  rw [read] at h
  generalize splitSign (text.toList.dropWhile isPadding) = signed at h
  obtain ⟨negative, body⟩ := signed
  dsimp only at h
  generalize hdigits : (body.takeWhile isDigitOrUnderscore).filterMap Text.decimalDigit? = digits at h
  split at h
  · cases h
  split at h
  · cases h
  next hlimit =>
    split at h
    · cases h
    have hlt : ∀ d ∈ digits, d < 10 := by
      intro d hd
      rw [← hdigits] at hd
      obtain ⟨c, _, hc⟩ := List.mem_filterMap.1 hd
      exact lt_ten_of_decimalDigit? hc
    have hbound := length_decimal_ofDigits hlt
    have hvalue : i.natAbs = Text.ofDigits digits := by
      cases h
      split
      · exact Int.natAbs_neg _
      · rfl
    have hone : 1 ≤ digitLimit := by decide
    rw [hvalue]
    omega

/-! ## Digits and numbers of a query -/

/-- A number of a query is digits, the decimal point apart. -/
theorem isDigit_of_isNumber {cs : List Char} (h : Token.IsNumber cs) :
    ∀ c ∈ cs, c ≠ '.' → c.isDigit = true := by
  have hall : ∀ (ds : List Char) (b : Bool), Scanner.numberChars b ds = ds →
      ∀ c ∈ ds, c ≠ '.' → c.isDigit = true := by
    intro ds
    induction ds with
    | nil => nofun
    | cons d ds ih =>
      intro b hds
      rw [List.forall_mem_cons]
      by_cases hpoint : d = '.'
      · refine ⟨fun hne => absurd hpoint hne, ?_⟩
        cases b with
        | true =>
          rw [Scanner.numberChars, if_pos hpoint, if_pos rfl] at hds
          exact ih false (List.cons.inj hds).2
        | false =>
          rw [Scanner.numberChars, if_pos hpoint, if_neg (by decide)] at hds
          cases hds
      · rw [Scanner.numberChars, if_neg hpoint] at hds
        by_cases hd : d.isDigit = true
        · rw [if_pos hd] at hds
          exact ⟨fun _ => hd, ih b (List.cons.inj hds).2⟩
        · rw [if_neg hd] at hds
          cases hds
  exact hall cs true h.2.2

/-- A number of a query without a decimal point is digits only. -/
theorem areDigits_of_isNumber {cs : List Char} (h : Token.IsNumber cs) (hpoint : '.' ∉ cs) :
    AreDigits cs :=
  ⟨h.2.1, fun c hc => isDigit_of_isNumber h c hc fun heq => hpoint (heq ▸ hc)⟩

/-- So is what stands in front of the point. -/
theorem areDigits_wholePart {cs : List Char} (h : Token.IsNumber cs) :
    AreDigits (cs.takeWhile (· != '.')) := by
  constructor
  · obtain ⟨c, ds, rfl⟩ := List.exists_cons_of_ne_nil h.2.1
    have hc : c ≠ '.' := by
      rintro rfl
      exact absurd (h.1 '.' rfl) (by decide)
    rw [List.takeWhile_cons_of_pos (by simpa using hc)]
    exact List.cons_ne_nil _ _
  · intro c hc
    have hpoint : c ≠ '.' := by simpa using List.mem_takeWhile_imp hc
    exact isDigit_of_isNumber h c ((List.takeWhile_sublist _).subset hc) hpoint

theorem isNumber_of_areDigits {cs : List Char} (h : AreDigits cs) :
    Token.IsNumber cs ∧ '.' ∉ cs := by
  have hpoint : '.' ∉ cs := fun hmem => absurd (h.2 _ hmem) (by decide)
  have hall : ∀ ds : List Char, (∀ c ∈ ds, c.isDigit = true) →
      Scanner.numberChars true ds = ds := by
    intro ds
    induction ds with
    | nil => intro _; rfl
    | cons d ds ih =>
      intro hds
      rw [List.forall_mem_cons] at hds
      have hd : d ≠ '.' := by
        rintro rfl
        exact absurd hds.1 (by decide)
      rw [Scanner.numberChars, if_neg hd, if_pos hds.1, ih hds.2]
  refine ⟨⟨?_, h.1, hall cs h.2⟩, hpoint⟩
  intro c hc
  exact h.2 c (List.mem_of_mem_head? hc)

end Integer
end QueryPipeline
