import QueryPipeline.Json.Reader
import QueryPipeline.Proofs.Number
import QueryPipeline.Proofs.Number.Binary64
import QueryPipeline.Proofs.Value.Made

/-!
# Written numbers are read back

The reader takes a number apart into a sign, a whole part, the digits behind the point and an
exponent.  A whole number is its digits (`readNumber_signedDecimal`).  A fraction is laid out in one
of four ways, with zeros in front of its digits, with zeros behind them, with the point between
them, or with an exponent.  In each of them the reader finds a decimal of the same number
(`readNumber_arrange`), and with that the fraction itself (`readNumber_chars`).
-/

namespace QueryPipeline.Json

open Integer (AreDigits areDigits_decimal)
open Binary64 (decimalValue)

/-! ## The parts of a number -/

/-- What may follow a value: nothing, a comma, a closing bracket or a line feed. -/
def Ends (rest : List Char) : Prop :=
  ∀ c ∈ rest.head?, c = ',' ∨ c = ']' ∨ c = '\x7d' ∨ c = '\n'

/-- What may follow a run of digits. -/
def EndsDigits (rest : List Char) : Prop :=
  ∀ c ∈ rest.head?, c.isDigit = false

theorem endsDigits_cons {c : Char} (h : c.isDigit = false) (cs : List Char) :
    EndsDigits (c :: cs) := by
  rintro d ⟨⟩
  exact h

theorem Ends.not_digit {c : Char} {rest : List Char} (h : Ends (c :: rest)) :
    c.isDigit = false ∧ c ≠ '.' ∧ c ≠ 'e' ∧ c ≠ 'E' := by
  rcases h c rfl with rfl | rfl | rfl | rfl <;> decide

theorem Ends.endsDigits {rest : List Char} (h : Ends rest) : EndsDigits rest := by
  intro c hc
  rcases h c hc with rfl | rfl | rfl | rfl <;> decide

theorem splitDigits_append {ds rest : List Char} (hds : ∀ c ∈ ds, c.isDigit = true)
    (hrest : EndsDigits rest) : splitDigits (ds ++ rest) = (ds, rest) := by
  have hnone : rest.takeWhile Char.isDigit = [] ∧ rest.dropWhile Char.isDigit = rest := by
    cases rest with
    | nil => exact ⟨rfl, rfl⟩
    | cons c rest => simp [hrest c rfl]
  rw [splitDigits, List.takeWhile_append_of_pos hds, List.dropWhile_append_of_pos hds, hnone.1,
    hnone.2, List.append_nil]

/-- A text with a minus sign in front, or without. -/
def signed (negative : Bool) (cs : List Char) : List Char :=
  if negative then '-' :: cs else cs

theorem splitSign_signed (negative : Bool) {cs : List Char} (h : cs.head? ≠ some '-') :
    splitSign (signed negative cs) = (negative, cs) := by
  cases negative with
  | true => rfl
  | false =>
    change splitSign cs = (false, cs)
    rw [splitSign]
    rintro rest rfl
    exact h rfl

/-- The digits of a whole part: they begin with a zero only if it is all there is. -/
structure IsWholePart (ds : List Char) : Prop where
  digits : AreDigits ds
  leading : ds = ['0'] ∨ ds.head? ≠ some '0'

theorem areDigits_zero : AreDigits ['0'] :=
  ⟨List.cons_ne_nil _ _, List.forall_mem_singleton.2 rfl⟩

theorem isWholePart_zero : IsWholePart ['0'] :=
  ⟨areDigits_zero, .inl rfl⟩

theorem IsWholePart.head?_ne {ds : List Char} (h : IsWholePart ds) (cs : List Char) :
    (ds ++ cs).head? ≠ some '-' := by
  obtain ⟨d, ds, rfl⟩ := List.exists_cons_of_ne_nil h.digits.1
  intro heq
  cases heq
  exact absurd (h.digits.2 '-' List.mem_cons_self) (by decide)

theorem splitWhole_append {ds rest : List Char} (h : IsWholePart ds) (hrest : EndsDigits rest) :
    splitWhole (ds ++ rest) = (ds, rest) := by
  rcases h.leading with rfl | hleading
  · rfl
  · rw [splitWhole, splitDigits_append h.digits.2 hrest]
    intro cs heq
    obtain ⟨d, ds, rfl⟩ := List.exists_cons_of_ne_nil h.digits.1
    cases heq
    exact hleading rfl

theorem splitFraction_ends {rest : List Char} (h : Ends rest) : splitFraction rest = ([], rest) := by
  cases rest with
  | nil => rfl
  | cons c rest =>
    obtain ⟨_, hc, _⟩ := h.not_digit
    rw [splitFraction]
    rintro cs ⟨⟩
    exact hc rfl

theorem splitFraction_point {ds rest : List Char} (hds : AreDigits ds) (hrest : EndsDigits rest) :
    splitFraction ('.' :: (ds ++ rest)) = (ds, rest) := by
  obtain ⟨d, more, rfl⟩ := List.exists_cons_of_ne_nil hds.1
  rw [splitFraction, splitDigits_append hds.2 hrest]

theorem splitExponent_ends {rest : List Char} (h : Ends rest) :
    splitExponent rest = (none, rest) := by
  cases rest with
  | nil => rfl
  | cons c rest =>
    obtain ⟨_, _, hlower, hupper⟩ := h.not_digit
    unfold splitExponent
    exact if_neg (not_or.2 ⟨hlower, hupper⟩)

/-! ## The value of digits -/

theorem digitsValue_eq (cs : List Char) : digitsValue cs = Nat.ofDigitChars 10 cs 0 := by
  rw [digitsValue, Text.ofDigits, List.foldl_map, Nat.ofDigitChars_eq_foldl]

theorem digitsValue_decimal (n : Nat) : digitsValue (Text.decimal n) = n :=
  (digitsValue_eq _).trans Nat.ofDigitChars_ten_toDigits

theorem digitsValue_zeros_append (k : Nat) (cs : List Char) :
    digitsValue (List.replicate k '0' ++ cs) = digitsValue cs := by
  rw [digitsValue_eq, digitsValue_eq, Nat.ofDigitChars_append, Nat.ofDigitChars_replicate_zero,
    Nat.mul_zero]

theorem digitsValue_append_zeros (cs : List Char) (k : Nat) :
    digitsValue (cs ++ List.replicate k '0') = digitsValue cs * 10 ^ k := by
  rw [digitsValue_eq, digitsValue_eq, Nat.ofDigitChars_append, Nat.ofDigitChars_replicate_zero,
    Nat.mul_comm]

/-- Zeros behind the digits of a decimal make up for a smaller power. -/
theorem decimalValue_append_zeros (cs : List Char) (k : Nat) (power : ℤ) :
    decimalValue (digitsValue (cs ++ List.replicate k '0')) power =
      decimalValue (digitsValue cs) (power + k) := by
  rw [digitsValue_append_zeros, decimalValue, decimalValue, zpow_add₀ (by norm_num), zpow_natCast]
  push_cast
  ring

/-! ## Whole numbers -/

theorem isWholePart_decimal (n : Nat) : IsWholePart (Text.decimal n) := by
  have heq : Text.decimal n = Integer.significant (Text.decimal n) :=
    (congrArg Text.decimal Nat.ofDigitChars_ten_toDigits.symm).trans
      (Integer.decimal_ofDigitChars (areDigits_decimal n))
  refine ⟨areDigits_decimal n, ?_⟩
  rw [Integer.significant] at heq
  cases hdrop : (Text.decimal n).dropWhile (· == '0') with
  | nil =>
    rw [hdrop] at heq
    exact .inl heq
  | cons c cs =>
    rw [hdrop] at heq
    have hhead := List.head?_dropWhile_not (· == '0') (Text.decimal n)
    rw [hdrop] at hhead
    refine .inr fun hzero => ?_
    rw [heq] at hzero
    cases hzero
    exact absurd hhead Bool.noConfusion

/-- Digits on their own are read as a whole number. -/
theorem readNumber_whole (negative : Bool) {whole rest : List Char} (hwhole : IsWholePart whole)
    (hlength : whole.length ≤ Integer.digitLimit) (hrest : Ends rest) :
    readNumber (signed negative (whole ++ rest)) =
      .ok (.int (if negative then -digitsValue whole else digitsValue whole), rest) := by
  have hempty : whole.isEmpty = false := by simp [hwhole.digits.1]
  have hlimit : ¬ Integer.digitLimit < whole.length := Nat.not_lt.2 hlength
  simp only [readNumber, splitSign_signed negative (hwhole.head?_ne rest),
    splitWhole_append hwhole hrest.endsDigits, splitFraction_ends hrest, splitExponent_ends hrest,
    hempty, hlimit]
  rfl

theorem readNumber_signedDecimal {i : Int} (h : Value.IsShort i) {rest : List Char}
    (hrest : Ends rest) : readNumber (Text.signedDecimal i ++ rest) = .ok (.int i, rest) := by
  cases i with
  | ofNat n =>
    have hread := readNumber_whole false (isWholePart_decimal n) h hrest
    rw [digitsValue_decimal] at hread
    exact hread
  | negSucc n =>
    have hread := readNumber_whole true (isWholePart_decimal (n + 1)) h hrest
    rw [digitsValue_decimal] at hread
    exact hread

/-! ## Fractions -/

/-- With a fraction or an exponent, a number is the fraction nearest to its decimal. -/
theorem readNumber_fraction (negative : Bool) {whole behind fraction middle rest : List Char}
    {exponent : Option Int} {x : Binary64} (hwhole : IsWholePart whole) (hbehind : EndsDigits behind)
    (hfraction : splitFraction behind = (fraction, middle))
    (hexponent : splitExponent middle = (exponent, rest)) (hparts : fraction ≠ [] ∨ exponent ≠ none)
    (hx : Binary64.ofDecimal? negative (digitsValue (whole ++ fraction))
      (exponent.getD 0 - fraction.length) = some x) :
    readNumber (signed negative (whole ++ behind)) = .ok (.real x, rest) := by
  have hempty : whole.isEmpty = false := by simp [hwhole.digits.1]
  have hparts : (fraction.isEmpty && exponent.isNone) = false := by
    rcases hparts with h | h <;> simp [h, Option.isSome_iff_ne_none]
  simp only [readNumber, splitSign_signed negative (hwhole.head?_ne behind),
    splitWhole_append hwhole hbehind, hfraction, hexponent, hempty, hparts, hx]
  rfl

/-- Digits with a point among them. -/
theorem readNumber_point (negative : Bool) {whole fraction rest : List Char} {x : Binary64}
    (hwhole : IsWholePart whole) (hfraction : AreDigits fraction) (hrest : Ends rest)
    (hx : Binary64.ofDecimal? negative (digitsValue (whole ++ fraction)) (-fraction.length) =
      some x) :
    readNumber (signed negative (whole ++ '.' :: (fraction ++ rest))) = .ok (.real x, rest) := by
  refine readNumber_fraction negative hwhole (endsDigits_cons (by decide) _)
    (splitFraction_point hfraction hrest.endsDigits) (splitExponent_ends hrest) (.inl hfraction.1) ?_
  rw [Option.getD_none, Int.zero_sub]
  exact hx

theorem splitExponent_minus {ds rest : List Char} (hds : AreDigits ds) (hrest : EndsDigits rest) :
    splitExponent ('e' :: '-' :: (ds ++ rest)) = (some (-(digitsValue ds : Int)), rest) := by
  obtain ⟨d, more, rfl⟩ := List.exists_cons_of_ne_nil hds.1
  simp only [splitExponent, splitDigits_append hds.2 hrest]
  rfl

theorem splitExponent_plus {ds rest : List Char} (hds : AreDigits ds) (hrest : EndsDigits rest) :
    splitExponent ('e' :: '+' :: (ds ++ rest)) = (some (digitsValue ds : Int), rest) := by
  obtain ⟨d, more, rfl⟩ := List.exists_cons_of_ne_nil hds.1
  simp only [splitExponent, splitDigits_append hds.2 hrest]
  rfl

theorem areDigits_zeros_append (k : Nat) {ds : List Char} (h : AreDigits ds) :
    AreDigits (List.replicate k '0' ++ ds) := by
  refine ⟨by simp [h.1], fun c hc => ?_⟩
  rcases List.mem_append.1 hc with hc | hc
  · rw [List.eq_of_mem_replicate hc]
    rfl
  · exact h.2 c hc

theorem splitExponent_exponentText (width : Nat) (e : Int) {rest : List Char}
    (hrest : EndsDigits rest) :
    splitExponent ('e' :: (Binary64.exponentText width e ++ rest)) = (some e, rest) := by
  have hdigits := areDigits_zeros_append (width - (Text.decimal e.natAbs).length)
    (areDigits_decimal e.natAbs)
  have hvalue := digitsValue_zeros_append (width - (Text.decimal e.natAbs).length)
    (Text.decimal e.natAbs)
  rw [digitsValue_decimal] at hvalue
  rw [Binary64.exponentText]
  by_cases he : e < 0
  · rw [if_pos he, List.cons_append, splitExponent_minus hdigits hrest, hvalue,
      Int.ofNat_natAbs_of_nonpos he.le, Int.neg_neg]
  · rw [if_neg he, List.cons_append, splitExponent_plus hdigits hrest, hvalue,
      Int.natAbs_of_nonneg (Int.not_lt.1 he)]

/-! ## The layout of a fraction -/

theorem isWholePart_cons {d : Char} {ds : List Char} (hdigits : ∀ c ∈ d :: ds, c.isDigit = true)
    (hleading : d ≠ '0') : IsWholePart (d :: ds) :=
  ⟨⟨List.cons_ne_nil _ _, hdigits⟩, .inr fun heq => hleading (Option.some.inj heq)⟩

section Layout

variable {negative : Bool} {d : Char} {ds rest : List Char} {power : ℤ} {x : Binary64}

/-- Zeros between the point and the digits. -/
theorem readNumber_small (hdigits : ∀ c ∈ d :: ds, c.isDigit = true) (hrest : Ends rest)
    (hx : Binary64.ofDecimal? negative (digitsValue (d :: ds)) power = some x) {k : Nat}
    (hpower : power = -((k + (d :: ds).length : Nat) : ℤ)) :
    readNumber (signed negative (['0'] ++ '.' :: (List.replicate k '0' ++ d :: ds ++ rest))) =
      .ok (.real x, rest) := by
  refine readNumber_point negative isWholePart_zero
    (areDigits_zeros_append k ⟨List.cons_ne_nil _ _, hdigits⟩) hrest ?_
  have hvalue := digitsValue_zeros_append (k + 1) (d :: ds)
  rw [List.replicate_succ, List.cons_append] at hvalue
  rw [List.singleton_append, hvalue, List.length_append, List.length_replicate, ← hpower]
  exact hx

/-- Zeros between the digits and the point. -/
theorem readNumber_large (hdigits : ∀ c ∈ d :: ds, c.isDigit = true) (hleading : d ≠ '0')
    (hrest : Ends rest)
    (hx : Binary64.ofDecimal? negative (digitsValue (d :: ds)) power = some x) {k : Nat}
    (hpower : power = k) :
    readNumber (signed negative (d :: ds ++ List.replicate k '0' ++ '.' :: (['0'] ++ rest))) =
      .ok (.real x, rest) := by
  have hwhole : IsWholePart (d :: ds ++ List.replicate k '0') := by
    rw [List.cons_append]
    refine isWholePart_cons (fun c hc => ?_) hleading
    rcases List.mem_append.1 (List.cons_append ▸ hc) with hc | hc
    · exact hdigits c hc
    · rw [List.eq_of_mem_replicate hc]
      rfl
  refine readNumber_point negative hwhole areDigits_zero hrest ?_
  rw [← hx, List.append_assoc, ← List.replicate_one, ← List.replicate_add]
  refine Binary64.ofDecimal?_congr negative ?_
  rw [decimalValue_append_zeros, hpower]
  congr 1
  push_cast
  simp

/-- The point among the digits. -/
theorem readNumber_middle (hdigits : ∀ c ∈ d :: ds, c.isDigit = true) (hleading : d ≠ '0')
    (hrest : Ends rest)
    (hx : Binary64.ofDecimal? negative (digitsValue (d :: ds)) power = some x) {k : Nat}
    (hk : k < ds.length) (hpower : power = -((ds.length - k : Nat) : ℤ)) :
    readNumber (signed negative (d :: ds.take k ++ '.' :: (ds.drop k ++ rest))) =
      .ok (.real x, rest) := by
  have hds : ∀ c ∈ ds, c.isDigit = true := fun c hc => hdigits c (List.mem_cons_of_mem d hc)
  have hwhole : IsWholePart (d :: ds.take k) :=
    isWholePart_cons (List.forall_mem_cons.2
      ⟨hdigits d List.mem_cons_self, fun c hc => hds c (List.mem_of_mem_take hc)⟩) hleading
  have hfraction : AreDigits (ds.drop k) :=
    ⟨fun heq => absurd (List.drop_eq_nil_iff.1 heq) (by omega),
      fun c hc => hds c (List.mem_of_mem_drop hc)⟩
  refine readNumber_point negative hwhole hfraction hrest ?_
  rw [List.cons_append, List.take_append_drop, List.length_drop, ← hpower]
  exact hx

/-- One digit in front of the point, and an exponent. -/
theorem readNumber_scientific (hdigits : ∀ c ∈ d :: ds, c.isDigit = true) (hleading : d ≠ '0')
    (hrest : Ends rest)
    (hx : Binary64.ofDecimal? negative (digitsValue (d :: ds)) power = some x) (width : Nat) :
    readNumber (signed negative ([d] ++ ((if ds.isEmpty then [] else '.' :: ds) ++
      'e' :: (Binary64.exponentText width (ds.length + power) ++ rest)))) = .ok (.real x, rest) := by
  have hwhole : IsWholePart [d] :=
    isWholePart_cons (List.forall_mem_singleton.2 (hdigits d List.mem_cons_self)) hleading
  have hexponent := splitExponent_exponentText width (ds.length + power) hrest.endsDigits
  have hx' : Binary64.ofDecimal? negative (digitsValue ([d] ++ ds))
      ((some (ds.length + power)).getD 0 - ds.length) = some x := by
    rw [Option.getD_some, add_sub_cancel_left]
    exact hx
  cases ds with
  | nil =>
    refine readNumber_fraction negative hwhole (endsDigits_cons (by decide) _) ?_ hexponent
      (.inr (Option.some_ne_none _)) hx'
    rfl
  | cons c cs =>
    refine readNumber_fraction negative hwhole (endsDigits_cons (by decide) _) ?_ hexponent
      (.inl (List.cons_ne_nil c cs)) hx'
    exact splitFraction_point
      ⟨List.cons_ne_nil c cs, fun b hb => hdigits b (List.mem_cons_of_mem d hb)⟩
      (endsDigits_cons (by decide) _)

/-- **Digits that are laid out are read as their decimal.** -/
theorem readNumber_arrange (l : Binary64.Layout) (hdigits : ∀ c ∈ d :: ds, c.isDigit = true)
    (hleading : d ≠ '0') (hrest : Ends rest)
    (hx : Binary64.ofDecimal? negative (digitsValue (d :: ds)) power = some x) :
    readNumber (signed negative
      (Binary64.arrange l (d :: ds) ((d :: ds).length + power) ++ rest)) = .ok (.real x, rest) := by
  have hlength : (d :: ds).length = ds.length + 1 := rfl
  rw [Binary64.arrange]
  split
  · split
    · exact readNumber_small hdigits hrest hx (by omega)
    · split
      · rw [List.append_assoc]
        exact readNumber_large hdigits hleading hrest hx (by omega)
      · obtain ⟨k, hk⟩ : ∃ k, ((d :: ds).length + power).toNat = k + 1 :=
          ⟨((d :: ds).length + power).toNat - 1, by omega⟩
        rw [hk, List.take_succ_cons, List.drop_succ_cons, List.append_assoc]
        exact readNumber_middle hdigits hleading hrest hx (by omega) (by omega)
  · have hexponent : ((d :: ds).length + power - 1 : ℤ) = ds.length + power := by omega
    dsimp only
    rw [hexponent, List.append_assoc, List.append_assoc]
    exact readNumber_scientific hdigits hleading hrest hx l.exponentDigits

end Layout

/-! ## The text of a fraction -/

theorem dropTrailingZeros_append (digits : List Char) :
    ∃ k, digits = Binary64.dropTrailingZeros digits ++ List.replicate k '0' := by
  have hzeros : digits.reverse.takeWhile (· == '0') =
      List.replicate (digits.reverse.takeWhile (· == '0')).length '0' :=
    List.eq_replicate_iff.2 ⟨rfl, fun c hc => by simpa using List.mem_takeWhile_imp hc⟩
  refine ⟨(digits.reverse.takeWhile (· == '0')).length, ?_⟩
  rw [Binary64.dropTrailingZeros, ← List.reverse_replicate, ← hzeros, ← List.reverse_append,
    List.takeWhile_append_dropWhile, List.reverse_reverse]

/-- The digits of a number without the zeros behind them. -/
theorem dropTrailingZeros_decimal {n : Nat} (h : n ≠ 0) :
    ∃ d ds k, Binary64.dropTrailingZeros (Text.decimal n) = d :: ds ∧ d ≠ '0' ∧
      (∀ c ∈ d :: ds, c.isDigit = true) ∧ Text.decimal n = d :: ds ++ List.replicate k '0' := by
  obtain ⟨hdigits, hleading⟩ := isWholePart_decimal n
  have hleading : (Text.decimal n).head? ≠ some '0' := by
    refine hleading.resolve_left fun hzero => h ?_
    rw [← digitsValue_decimal n, hzero]
    rfl
  obtain ⟨k, hk⟩ := dropTrailingZeros_append (Text.decimal n)
  cases hdrop : Binary64.dropTrailingZeros (Text.decimal n) with
  | nil =>
    -- only zeros would be left
    rw [hdrop, List.nil_append] at hk
    cases k with
    | zero => exact absurd hk hdigits.1
    | succ k => exact absurd (congrArg List.head? hk) hleading
  | cons d ds =>
    rw [hdrop] at hk
    rw [hk] at hleading hdigits
    exact ⟨d, ds, k, rfl, fun hd => hleading (congrArg some hd),
      fun c hc => hdigits.2 c (List.mem_append_left _ hc), hk⟩

theorem signed_append (negative : Bool) (cs rest : List Char) :
    signed negative cs ++ rest = signed negative (cs ++ rest) := by
  cases negative <;> rfl

theorem chars_of_zero {x : Binary64} (h : x.mantissa = 0) :
    x.chars = signed x.negative ['0', '.', '0'] := by
  rw [Binary64.chars, Binary64.isZero, h]
  rfl

theorem chars_of_ne_zero {x : Binary64} (h : x.mantissa ≠ 0) :
    x.chars = signed x.negative (Binary64.arrange Binary64.layout
      (Binary64.dropTrailingZeros (Text.decimal x.shortest.1))
      ((Text.decimal x.shortest.1).length + x.shortest.2)) := by
  rw [Binary64.chars, Binary64.isZero, beq_false_of_ne h]
  rfl

/-- **The text of a fraction is read as this fraction.** -/
theorem readNumber_chars {x : Binary64} (h : x.IsRounded) {rest : List Char} (hrest : Ends rest) :
    readNumber (x.chars ++ rest) = .ok (.real x, rest) := by
  by_cases hzero : x.mantissa = 0
  · have hx : Binary64.ofDecimal? x.negative 0 (-1) = some x := by
      rw [Binary64.ofDecimal?_zero]
      cases h with
      | zero negative => rfl
      | legal negative h => exact absurd hzero h.pos.ne'
    rw [chars_of_zero hzero, signed_append]
    exact readNumber_point x.negative isWholePart_zero areDigits_zero hrest hx
  · have hshortest := Binary64.ofDecimal?_shortest h hzero
    have hdigits : x.shortest.1 ≠ 0 := by
      intro hdigits
      rw [hdigits, Binary64.ofDecimal?_zero] at hshortest
      exact hzero (congrArg Binary64.mantissa (Option.some.inj hshortest)).symm
    obtain ⟨d, ds, k, hdrop, hleading, hds, htext⟩ := dropTrailingZeros_decimal hdigits
    -- the zeros that are not written are made up for by the power
    have hvalue : decimalValue (digitsValue (d :: ds)) (x.shortest.2 + k) =
        decimalValue x.shortest.1 x.shortest.2 := by
      rw [← decimalValue_append_zeros, ← htext, digitsValue_decimal]
    have hx : Binary64.ofDecimal? x.negative (digitsValue (d :: ds)) (x.shortest.2 + k) = some x :=
      (Binary64.ofDecimal?_congr x.negative hvalue).trans hshortest
    have hpoint : ((Text.decimal x.shortest.1).length + x.shortest.2 : ℤ) =
        (d :: ds).length + (x.shortest.2 + k) := by
      rw [htext, List.length_append, List.length_replicate]
      push_cast
      ring
    rw [chars_of_ne_zero hzero, signed_append, hdrop, hpoint]
    exact readNumber_arrange Binary64.layout hds hleading hrest hx

/-! ## How a number begins -/

/-- What is read as a number begins with a minus sign or a digit. -/
theorem head_of_readNumber {c : Char} {cs : List Char} {r : Value × List Char}
    (h : readNumber (c :: cs) = .ok r) : 45 ≤ c.toNat ∧ c.toNat ≤ 57 := by
  by_contra hc
  have hdigit : c.isDigit = false := by
    rw [← Bool.not_eq_true]
    intro hdigit
    obtain ⟨hlo, hhi⟩ := Scanner.isDigit_range hdigit
    exact hc ⟨by omega, hhi⟩
  have hsign : splitSign (c :: cs) = (false, c :: cs) := by
    refine splitSign_signed false fun heq => hc ?_
    cases heq
    decide
  have hwhole : splitWhole (c :: cs) = ([], c :: cs) := by
    rw [splitWhole]
    · exact splitDigits_append (List.forall_mem_nil _) (endsDigits_cons hdigit cs)
    · rintro rest heq
      cases heq
      exact hc (by decide)
  rw [readNumber, hsign] at h
  simp only [hwhole] at h
  split at h
  · split at h <;> cases h
  next hempty => exact hempty rfl

theorem cons_of_readNumber {cs : List Char} {r : Value × List Char} (h : readNumber cs = .ok r) :
    ∃ c rest, cs = c :: rest ∧ 45 ≤ c.toNat ∧ c.toNat ≤ 57 := by
  cases cs with
  | nil => cases h
  | cons c rest => exact ⟨c, rest, rfl, head_of_readNumber h⟩

theorem readValue_of_readNumber (n : Nat) {cs : List Char} {r : Value × List Char}
    (h : readNumber cs = .ok r) : readValue (n + 1) cs = .ok r := by
  obtain ⟨c, rest, rfl, hlo, hhi⟩ := cons_of_readNumber h
  rw [← h]
  unfold readValue
  split
  case h_7 => rfl
  all_goals
    -- every other kind of value begins with another character
    next heq =>
    obtain ⟨rfl, _⟩ := List.cons.inj heq
    exact absurd (And.intro hlo hhi) (by decide)

end QueryPipeline.Json
