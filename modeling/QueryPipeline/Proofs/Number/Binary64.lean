import Mathlib.Data.Int.Log
import Mathlib.Data.Rat.Floor
import Mathlib.Tactic.FieldSimp
import Mathlib.Tactic.Linarith
import QueryPipeline.Number.Binary64

/-!
# Binary fractions are read back

A decimal that is written for a binary fraction is read as that fraction (`ofDecimal?_shortest`).
Reading rounds, and all that it needs to know of a decimal is the rational number that it stands
for:

    digits · 10 ^ power

Two decimals of one number are therefore read alike (`ofDecimal?_congr`), and the decimal that is a
legal fraction to the last digit is read as this fraction (`IsLegal.ofDecimal?_eq_some`).  The
search for a shorter decimal takes only such as are read back.
-/

namespace QueryPipeline.Binary64

/-! ## Fractions of natural numbers -/

/-- The rational number of a numerator and a denominator. -/
def ratio (p : Nat × Nat) : ℚ :=
  p.1 / p.2

theorem scale_pos {base : Nat} (hbase : 0 < base) (power : Int) (n : Nat) {d : Nat} (hd : 0 < d) :
    0 < (scale base power n d).2 := by
  cases power with
  | ofNat p => exact hd
  | negSucc p => exact Nat.mul_pos hd (Nat.pow_pos hbase)

theorem ratio_scale {base : Nat} (hbase : 0 < base) (power : Int) (n d : Nat) :
    ratio (scale base power n d) = ratio (n, d) * (base : ℚ) ^ power := by
  have hne : (base : ℚ) ≠ 0 := Nat.cast_ne_zero.2 hbase.ne'
  cases power with
  | ofNat p =>
    change ((n * base ^ p : Nat) : ℚ) / d = n / d * (base : ℚ) ^ (p : ℤ)
    rw [zpow_natCast]
    push_cast
    ring
  | negSucc p =>
    change (n : ℚ) / ((d * base ^ (p + 1) : Nat) : ℚ) = n / d * (base : ℚ) ^ Int.negSucc p
    rw [zpow_negSucc]
    push_cast
    rw [div_mul_eq_div_mul_one_div, one_div]

theorem ratio_pos {n d : Nat} (hn : 0 < n) (hd : 0 < d) : 0 < ratio (n, d) :=
  div_pos (Nat.cast_pos.2 hn) (Nat.cast_pos.2 hd)

/-- Fractions of one number have equal products across. -/
theorem mul_eq_of_ratio_eq {n d n' d' : Nat} (hd : 0 < d) (hd' : 0 < d')
    (h : ratio (n, d) = ratio (n', d')) : n * d' = n' * d := by
  have hne : (d : ℚ) ≠ 0 := Nat.cast_ne_zero.2 hd.ne'
  have hne' : (d' : ℚ) ≠ 0 := Nat.cast_ne_zero.2 hd'.ne'
  rw [ratio, ratio, div_eq_div_iff hne hne'] at h
  exact_mod_cast h

/-! ## Powers -/

theorem log_eq {b : Nat} (hb : 1 < b) {q : ℚ} {k : ℤ} (hlow : (b : ℚ) ^ k ≤ q)
    (hhigh : q < (b : ℚ) ^ (k + 1)) : Int.log b q = k := by
  have hq : 0 < q := lt_of_lt_of_le (zpow_pos (by positivity) k) hlow
  have hle := (Int.zpow_le_iff_le_log hb hq).1 hlow
  have hlt := (Int.lt_zpow_iff_log_lt hb hq).1 hhigh
  omega

/-- A comparison with a power of two, without the power. -/
theorem scale_le_iff (g : ℤ) (n : Nat) {d : Nat} (hd : 0 < d) :
    (scale 2 (-g) n d).2 ≤ (scale 2 (-g) n d).1 ↔ (2 : ℚ) ^ g ≤ ratio (n, d) := by
  have hpos : (0 : ℚ) < (scale 2 (-g) n d).2 := Nat.cast_pos.2 (scale_pos (by decide) (-g) n hd)
  have hratio := ratio_scale (by decide : 0 < 2) (-g) n d
  rw [ratio, div_eq_iff hpos.ne', zpow_neg, Nat.cast_ofNat] at hratio
  have htwo : (0 : ℚ) < 2 ^ g := zpow_pos (by norm_num) g
  rw [← Nat.cast_le (α := ℚ), hratio, le_mul_iff_one_le_left hpos, ← div_eq_mul_inv,
    one_le_div htwo]

/-- The powers of two around a fraction, from those around its parts. -/
theorem ratio_bounds {n d : Nat} (hn : 0 < n) (hd : 0 < d) :
    (2 : ℚ) ^ ((n.log2 : ℤ) - d.log2 - 1) ≤ ratio (n, d) ∧
      ratio (n, d) < (2 : ℚ) ^ ((n.log2 : ℤ) - d.log2 + 1) := by
  have hn₁ : (2 : ℚ) ^ n.log2 ≤ n := by exact_mod_cast Nat.log2_self_le hn.ne'
  have hn₂ : (n : ℚ) < 2 ^ (n.log2 + 1) := by exact_mod_cast Nat.lt_log2_self
  have hd₁ : (2 : ℚ) ^ d.log2 ≤ d := by exact_mod_cast Nat.log2_self_le hd.ne'
  have hd₂ : (d : ℚ) < 2 ^ (d.log2 + 1) := by exact_mod_cast Nat.lt_log2_self
  have hd₀ : (0 : ℚ) < d := Nat.cast_pos.2 hd
  rw [ratio, le_div_iff₀ hd₀, div_lt_iff₀ hd₀]
  constructor
  · calc (2 : ℚ) ^ ((n.log2 : ℤ) - d.log2 - 1) * d
        ≤ 2 ^ ((n.log2 : ℤ) - d.log2 - 1) * 2 ^ (d.log2 + 1) :=
          mul_le_mul_of_nonneg_left hd₂.le (zpow_nonneg (by norm_num) _)
      _ = 2 ^ n.log2 := by
        rw [← zpow_natCast, ← zpow_natCast, ← zpow_add₀ (by norm_num)]
        congr 1
        push_cast
        ring
      _ ≤ n := hn₁
  · calc (n : ℚ) < 2 ^ (n.log2 + 1) := hn₂
      _ = 2 ^ ((n.log2 : ℤ) - d.log2 + 1) * 2 ^ d.log2 := by
        rw [← zpow_natCast, ← zpow_natCast, ← zpow_add₀ (by norm_num)]
        congr 1
        push_cast
        ring
      _ ≤ 2 ^ ((n.log2 : ℤ) - d.log2 + 1) * d :=
        mul_le_mul_of_nonneg_left hd₁ (zpow_nonneg (by norm_num) _)

/-- **The power of two that a fraction reaches** is its logarithm. -/
theorem topPower_eq_log {n d : Nat} (hn : 0 < n) (hd : 0 < d) :
    topPower n d = Int.log 2 (ratio (n, d)) := by
  obtain ⟨hlow, hhigh⟩ := ratio_bounds hn hd
  have htest := scale_le_iff ((n.log2 : ℤ) - d.log2) n hd
  rw [topPower]
  change (if (scale 2 (-((n.log2 : ℤ) - d.log2)) n d).2 ≤
    (scale 2 (-((n.log2 : ℤ) - d.log2)) n d).1 then _ else _) = _
  generalize (n.log2 : ℤ) - d.log2 = g at *
  by_cases hreach : (2 : ℚ) ^ g ≤ ratio (n, d)
  · rw [if_pos (htest.2 hreach)]
    exact (log_eq (by decide) (by exact_mod_cast hreach) (by exact_mod_cast hhigh)).symm
  · rw [if_neg (mt htest.1 hreach)]
    refine (log_eq (by decide) (by exact_mod_cast hlow) ?_).symm
    rw [sub_add_cancel]
    exact_mod_cast lt_of_not_ge hreach

/-! ## Rounding -/

theorem roundHalfEven_mul {k : Nat} (hk : 0 < k) (n d : Nat) :
    roundHalfEven (k * n) (k * d) = roundHalfEven n d := by
  have hless : ∀ a b : Nat, 2 * (k * a) < k * b ↔ 2 * a < b := by
    intro a b
    rw [Nat.mul_left_comm, Nat.mul_lt_mul_left hk]
  have hmore : ∀ a b : Nat, k * b < 2 * (k * a) ↔ b < 2 * a := by
    intro a b
    rw [Nat.mul_left_comm, Nat.mul_lt_mul_left hk]
  simp only [roundHalfEven, Nat.mul_div_mul_left _ _ hk, Nat.mul_mod_mul_left, hless, hmore]

/-- **Rounding depends on the number only.** -/
theorem roundHalfEven_congr {n d n' d' : Nat} (hd : 0 < d) (hd' : 0 < d')
    (h : ratio (n, d) = ratio (n', d')) : roundHalfEven n d = roundHalfEven n' d' := by
  rw [← roundHalfEven_mul hd' n d, ← roundHalfEven_mul hd n' d', Nat.mul_comm d' n,
    mul_eq_of_ratio_eq hd hd' h, Nat.mul_comm n' d, Nat.mul_comm d' d]

theorem roundHalfEven_exact {m d : Nat} (hd : 0 < d) : roundHalfEven (m * d) d = m := by
  rw [roundHalfEven]
  rw [Nat.mul_mod_left, Nat.mul_div_cancel _ hd, if_pos (by omega)]

theorem roundHalfEven_bounds (n d : Nat) :
    n / d ≤ roundHalfEven n d ∧ roundHalfEven n d ≤ n / d + 1 := by
  rw [roundHalfEven]
  split
  · omega
  · split
    · omega
    · omega

/-- The exponent that a number is rounded to. -/
def exponentOf (q : ℚ) : ℤ :=
  max (Int.log 2 q - (mantissaBits - 1)) leastExponent

/-- The mantissa that a number is rounded to. -/
def mantissaOf (n d : Nat) (e : ℤ) : Nat :=
  roundHalfEven (scale 2 (-e) n d).1 (scale 2 (-e) n d).2

theorem ofFraction?_eq (negative : Bool) {n d : Nat} (hn : 0 < n) (hd : 0 < d) :
    ofFraction? negative n d =
      ofMantissa? negative (mantissaOf n d (exponentOf (ratio (n, d)))) (exponentOf (ratio (n, d))) := by
  rw [ofFraction?, if_neg hn.ne', topPower_eq_log hn hd]
  rfl

theorem mantissaOf_congr {n d n' d' : Nat} (hd : 0 < d) (hd' : 0 < d') {e e' : ℤ}
    (h : ratio (n, d) * 2 ^ (-e) = ratio (n', d') * 2 ^ (-e')) :
    mantissaOf n d e = mantissaOf n' d' e' := by
  refine roundHalfEven_congr (scale_pos (by decide) _ n hd) (scale_pos (by decide) _ n' hd') ?_
  exact (ratio_scale (by decide) _ n d).trans (h.trans (ratio_scale (by decide) _ n' d').symm)

/-- **Rounding to a binary fraction depends on the number only.** -/
theorem ofFraction?_congr (negative : Bool) {n d n' d' : Nat} (hd : 0 < d) (hd' : 0 < d')
    (h : ratio (n, d) = ratio (n', d')) : ofFraction? negative n d = ofFraction? negative n' d' := by
  have hcross := mul_eq_of_ratio_eq hd hd' h
  by_cases hn : n = 0
  · have hn' : n' = 0 := by
      rw [hn, Nat.zero_mul, eq_comm, Nat.mul_eq_zero] at hcross
      omega
    rw [hn, hn']
    rfl
  · have hn' : 0 < n' := by
      refine Nat.pos_of_ne_zero fun hzero => hn ?_
      rw [hzero, Nat.zero_mul, Nat.mul_eq_zero] at hcross
      omega
    rw [ofFraction?_eq negative (Nat.pos_of_ne_zero hn) hd, ofFraction?_eq negative hn' hd', h,
      mantissaOf_congr hd hd' (congrArg (· * _) h)]

/-! ## Legal fractions -/

/-- The mantissa and the exponent of a binary fraction that is not zero: the mantissa has all its
bits, or the exponent is the least one. -/
structure IsLegal (m : Nat) (e : ℤ) : Prop where
  pos : 0 < m
  lt : m < 2 ^ 53
  least_le : -1074 ≤ e
  le_greatest : e ≤ 971
  full : 2 ^ 52 ≤ m ∨ e = -1074

namespace IsLegal

variable {m : Nat} {e : ℤ} (h : IsLegal m e)
include h

theorem value_pos : (0 : ℚ) < m * 2 ^ e :=
  mul_pos (Nat.cast_pos.2 h.pos) (zpow_pos (by norm_num) e)

/-- The powers of two around a legal fraction. -/
theorem value_lt : (m : ℚ) * 2 ^ e < 2 ^ (53 + e) := by
  rw [zpow_add₀ (by norm_num)]
  refine mul_lt_mul_of_pos_right ?_ (zpow_pos (by norm_num) e)
  exact_mod_cast h.lt

theorem exponentOf_value : exponentOf (m * 2 ^ e) = e := by
  have hleast := h.least_le
  have hlog : Int.log 2 ((m : ℚ) * 2 ^ e) < 53 + e :=
    (Int.lt_zpow_iff_log_lt (by decide) h.value_pos).1 (by exact_mod_cast h.value_lt)
  have hmax : exponentOf (m * 2 ^ e) = max (Int.log 2 ((m : ℚ) * 2 ^ e) - 52) (-1074) := rfl
  rw [hmax]
  rcases h.full with hfull | rfl
  · have hreach : 52 + e ≤ Int.log 2 ((m : ℚ) * 2 ^ e) := by
      refine (Int.zpow_le_iff_le_log (by decide) h.value_pos).1 ?_
      rw [Nat.cast_ofNat, zpow_add₀ (by norm_num)]
      refine mul_le_mul_of_nonneg_right ?_ (zpow_nonneg (by norm_num) e)
      exact_mod_cast hfull
    omega
  · omega

/-- **A legal fraction is its own rounding.** -/
theorem ofFraction?_eq_some (negative : Bool) {n d : Nat} (hd : 0 < d)
    (hvalue : ratio (n, d) = m * 2 ^ e) : ofFraction? negative n d = some ⟨negative, m, e⟩ := by
  have hn : 0 < n := by
    refine Nat.pos_of_ne_zero fun hzero => h.value_pos.ne ?_
    rw [← hvalue, hzero, ratio, Nat.cast_zero, zero_div]
  have hmantissa : mantissaOf n d e = m := by
    have hunit : mantissaOf m 1 0 = m := by
      change roundHalfEven (m * 1) 1 = m
      exact roundHalfEven_exact Nat.one_pos
    rw [← hunit]
    refine mantissaOf_congr hd (by decide) ?_
    rw [hvalue, mul_assoc, ← zpow_add₀ (by norm_num), add_neg_cancel, neg_zero, ratio, Nat.cast_one,
      div_one]
  have hlt := h.lt
  have hpos := h.pos
  have hle := h.le_greatest
  rw [ofFraction?_eq negative hn hd, hvalue, h.exponentOf_value, hmantissa, ofMantissa?]
  have hpower : Nat.pow 2 mantissaBits = 2 ^ 53 := rfl
  have hgreatest : greatestExponent = 971 := rfl
  rw [hpower, if_neg hlt.ne]
  dsimp only
  rw [if_neg hpos.ne', if_neg (by omega)]

end IsLegal

/-- The mantissa of a number has at most its bits, and all of them above the least exponent. -/
theorem mantissaOf_bounds {n d : Nat} (hn : 0 < n) (hd : 0 < d) :
    let e := exponentOf (ratio (n, d))
    mantissaOf n d e ≤ 2 ^ 53 ∧ -1074 ≤ e ∧ (2 ^ 52 ≤ mantissaOf n d e ∨ e = -1074) := by
  intro e
  have hq := ratio_pos hn hd
  have hmax : e = max (Int.log 2 (ratio (n, d)) - 52) (-1074) := rfl
  have hpos := scale_pos (by decide : 0 < 2) (-e) n hd
  have hpos' : (0 : ℚ) < (scale 2 (-e) n d).2 := Nat.cast_pos.2 hpos
  have hratio := ratio_scale (by decide : 0 < 2) (-e) n d
  obtain ⟨hfloor, hceil⟩ := roundHalfEven_bounds (scale 2 (-e) n d).1 (scale 2 (-e) n d).2
  rw [ratio, div_eq_iff hpos'.ne', Nat.cast_ofNat] at hratio
  refine ⟨?_, by omega, ?_⟩
  · -- the number is below the next power of two, so its floor is too
    have hlt : ratio (n, d) * 2 ^ (-e) < 2 ^ 53 := by
      have hlog : ratio (n, d) < 2 ^ (53 + e) := by
        have := (Int.lt_zpow_iff_log_lt (by decide : 1 < 2) (x := 53 + e) hq).2 (by omega)
        exact_mod_cast this
      rw [zpow_neg, ← div_eq_mul_inv, div_lt_iff₀ (zpow_pos (by norm_num) e)]
      rwa [zpow_add₀ (by norm_num)] at hlog
    have hnum : (scale 2 (-e) n d).1 < 2 ^ 53 * (scale 2 (-e) n d).2 := by
      have : ((scale 2 (-e) n d).1 : ℚ) < 2 ^ 53 * (scale 2 (-e) n d).2 := by
        rw [hratio]
        exact mul_lt_mul_of_pos_right hlt hpos'
      exact_mod_cast this
    have hdiv := (Nat.div_lt_iff_lt_mul hpos).2 hnum
    exact hceil.trans hdiv
  · by_cases hleast : e = -1074
    · exact .inr hleast
    · refine .inl (le_trans ?_ hfloor)
      have hge : (2 : ℚ) ^ 52 ≤ ratio (n, d) * 2 ^ (-e) := by
        have hlog : (2 : ℚ) ^ (52 + e) ≤ ratio (n, d) := by
          have := (Int.zpow_le_iff_le_log (by decide : 1 < 2) (x := 52 + e) hq).2 (by omega)
          exact_mod_cast this
        rw [zpow_neg, ← div_eq_mul_inv, le_div_iff₀ (zpow_pos (by norm_num) e)]
        rwa [zpow_add₀ (by norm_num)] at hlog
      have hnum : 2 ^ 52 * (scale 2 (-e) n d).2 ≤ (scale 2 (-e) n d).1 := by
        have : (2 : ℚ) ^ 52 * (scale 2 (-e) n d).2 ≤ (scale 2 (-e) n d).1 := by
          rw [hratio]
          exact mul_le_mul_of_nonneg_right hge hpos'.le
        exact_mod_cast this
      exact (Nat.le_div_iff_mul_le hpos).2 hnum

/-- The fractions that rounding gives: zero, and the legal ones. -/
inductive IsRounded : Binary64 → Prop
  | zero (negative : Bool) : IsRounded ⟨negative, 0, 0⟩
  | legal (negative : Bool) {m : Nat} {e : ℤ} : IsLegal m e → IsRounded ⟨negative, m, e⟩

theorem isRounded_ofMantissa? {negative : Bool} {m : Nat} {e : ℤ} {x : Binary64}
    (hm : m ≤ 2 ^ 53) (he : -1074 ≤ e) (hfull : 2 ^ 52 ≤ m ∨ e = -1074)
    (h : ofMantissa? negative m e = some x) : x.IsRounded := by
  have hpower : Nat.pow 2 mantissaBits = 2 ^ 53 := rfl
  have hhalf : Nat.pow 2 (mantissaBits - 1) = 2 ^ 52 := rfl
  have hgreatest : greatestExponent = 971 := rfl
  rw [ofMantissa?, hpower, hhalf, hgreatest] at h
  split at h
  next m' e' hcarry =>
    have hlegal : m' ≠ 0 → e' ≤ 971 → IsLegal m' e' := by
      intro hzero hle
      split at hcarry
      · cases hcarry
        exact ⟨by omega, by omega, by omega, hle, .inl (Nat.le_refl _)⟩
      · cases hcarry
        exact ⟨by omega, by omega, he, hle, hfull⟩
    split at h
    · cases h
      exact .zero negative
    next hzero =>
      split at h
      · cases h
      next hle =>
        cases h
        exact .legal negative (hlegal hzero (by omega))

theorem isRounded_ofFraction? {negative : Bool} {n d : Nat} (hd : 0 < d) {x : Binary64}
    (h : ofFraction? negative n d = some x) : x.IsRounded := by
  by_cases hn : n = 0
  · rw [ofFraction?, if_pos hn] at h
    cases h
    exact .zero negative
  · have hpos := Nat.pos_of_ne_zero hn
    obtain ⟨hle, hleast, hfull⟩ := mantissaOf_bounds hpos hd
    rw [ofFraction?_eq negative hpos hd] at h
    exact isRounded_ofMantissa? hle hleast hfull h

/-! ## Decimals -/

/-- The number that a decimal stands for. -/
def decimalValue (digits : Nat) (power : ℤ) : ℚ :=
  digits * 10 ^ power

theorem ratio_decimal (digits : Nat) (power : ℤ) :
    ratio (scale 10 power digits 1) = decimalValue digits power := by
  rw [ratio_scale (by decide), ratio, Nat.cast_one, div_one]
  rfl

theorem decimalValue_pos {digits : Nat} (h : digits ≠ 0) (power : ℤ) :
    0 < decimalValue digits power :=
  mul_pos (Nat.cast_pos.2 (Nat.pos_of_ne_zero h)) (zpow_pos (by norm_num) power)

theorem decimalValue_eq_zero {digits : Nat} {power : ℤ} :
    decimalValue digits power = 0 ↔ digits = 0 := by
  constructor
  · intro h
    by_contra hdigits
    exact (decimalValue_pos hdigits power).ne' h
  · rintro rfl
    rw [decimalValue, Nat.cast_zero, zero_mul]

/-- The size of a decimal is that of its number. -/
theorem size_eq_log {digits : Nat} (h : digits ≠ 0) (power : ℤ) :
    power + (Text.decimal digits).length = Int.log 10 (decimalValue digits power) + 1 := by
  have hlength : 0 < (Text.decimal digits).length := Nat.length_toDigits_pos
  obtain ⟨k, hk⟩ : ∃ k, (Text.decimal digits).length = k + 1 :=
    ⟨(Text.decimal digits).length - 1, by omega⟩
  have hhigh : digits < 10 ^ (k + 1) :=
    (Nat.length_toDigits_le_iff (by decide) (by omega)).1 hk.le
  have hlow : 10 ^ k ≤ digits := by
    rcases Nat.eq_zero_or_pos k with rfl | hpos
    · exact Nat.one_le_iff_ne_zero.2 h
    · refine Nat.le_of_not_lt fun hlt => ?_
      have := (Nat.length_toDigits_le_iff (by decide) hpos).2 hlt
      rw [Text.decimal] at hk
      omega
  have hlog : Int.log 10 (decimalValue digits power) = k + power := by
    have hten : (0 : ℚ) < 10 ^ power := zpow_pos (by norm_num) power
    refine log_eq (by decide) ?_ ?_
    · rw [Nat.cast_ofNat, zpow_add₀ (by norm_num), zpow_natCast]
      refine mul_le_mul_of_nonneg_right ?_ hten.le
      exact_mod_cast hlow
    · rw [Nat.cast_ofNat, add_right_comm, zpow_add₀ (by norm_num)]
      refine mul_lt_mul_of_pos_right ?_ hten
      exact_mod_cast hhigh
  rw [hlog, hk]
  push_cast
  ring

/-- Reading a decimal, by the size of its number. -/
theorem ofDecimal?_eq (negative : Bool) {digits : Nat} (h : digits ≠ 0) (power : ℤ) :
    ofDecimal? negative digits power =
      if Int.log 10 (decimalValue digits power) + 1 < -330 then some ⟨negative, 0, 0⟩
      else if 310 < Int.log 10 (decimalValue digits power) + 1 then none
      else ofFraction? negative (scale 10 power digits 1).1 (scale 10 power digits 1).2 := by
  rw [← size_eq_log h, ofDecimal?]
  simp only [h, false_or]

theorem ofDecimal?_zero (negative : Bool) (power : ℤ) :
    ofDecimal? negative 0 power = some ⟨negative, 0, 0⟩ := by
  rw [ofDecimal?, if_pos (.inl rfl)]

/-- **Reading a decimal depends on its number only.** -/
theorem ofDecimal?_congr (negative : Bool) {digits digits' : Nat} {power power' : ℤ}
    (h : decimalValue digits power = decimalValue digits' power') :
    ofDecimal? negative digits power = ofDecimal? negative digits' power' := by
  by_cases hdigits : digits = 0
  · have hdigits' : digits' = 0 := by
      rw [← @decimalValue_eq_zero _ power', ← h, decimalValue_eq_zero]
      exact hdigits
    rw [hdigits, hdigits', ofDecimal?_zero, ofDecimal?_zero]
  · have hdigits' : digits' ≠ 0 := by
      rw [Ne, ← @decimalValue_eq_zero _ power', ← h, decimalValue_eq_zero]
      exact hdigits
    have hratio := (ratio_decimal digits power).trans (h.trans (ratio_decimal digits' power').symm)
    have hfraction : ofFraction? negative (scale 10 power digits 1).1 (scale 10 power digits 1).2 =
        ofFraction? negative (scale 10 power' digits' 1).1 (scale 10 power' digits' 1).2 :=
      ofFraction?_congr negative (scale_pos (by decide) power digits Nat.one_pos)
        (scale_pos (by decide) power' digits' Nat.one_pos) hratio
    rw [ofDecimal?_eq negative hdigits, ofDecimal?_eq negative hdigits', h, hfraction]

theorem isRounded_ofDecimal? {negative : Bool} {digits : Nat} {power : ℤ} {x : Binary64}
    (h : ofDecimal? negative digits power = some x) : x.IsRounded := by
  by_cases hdigits : digits = 0
  · rw [hdigits, ofDecimal?_zero] at h
    cases h
    exact .zero negative
  · rw [ofDecimal?_eq negative hdigits] at h
    split at h
    · cases h
      exact .zero negative
    · split at h
      · cases h
      · exact isRounded_ofFraction? (scale_pos (by decide) _ _ Nat.one_pos) h

/-- A legal fraction lies far inside of the decimals that are read by their size alone. -/
theorem IsLegal.log_bounds {m : Nat} {e : ℤ} (h : IsLegal m e) :
    -331 ≤ Int.log 10 ((m : ℚ) * 2 ^ e) ∧ Int.log 10 ((m : ℚ) * 2 ^ e) < 310 := by
  have hpos := h.pos
  have hleast := h.least_le
  have hgreatest := h.le_greatest
  have hsmall : 2 ^ 1074 ≤ 10 ^ 331 := by decide +kernel
  have hlarge : 2 ^ 1024 ≤ 10 ^ 310 := by decide +kernel
  constructor
  · refine (Int.zpow_le_iff_le_log (by decide) h.value_pos).1 ?_
    calc ((10 : Nat) : ℚ) ^ (-331 : ℤ) ≤ 2 ^ (-1074 : ℤ) := by
          rw [zpow_neg, zpow_neg]
          refine inv_anti₀ (zpow_pos (by norm_num) _) ?_
          exact_mod_cast hsmall
      _ ≤ 2 ^ e := zpow_le_zpow_right₀ (by norm_num) hleast
      _ ≤ m * 2 ^ e := by
        refine le_mul_of_one_le_left (zpow_nonneg (by norm_num) e) ?_
        exact_mod_cast hpos
  · refine (Int.lt_zpow_iff_log_lt (by decide) h.value_pos).1 ?_
    calc (m : ℚ) * 2 ^ e < 2 ^ (53 + e) := h.value_lt
      _ ≤ 2 ^ (1024 : ℤ) := zpow_le_zpow_right₀ (by norm_num) (by omega)
      _ ≤ ((10 : Nat) : ℚ) ^ (310 : ℤ) := by exact_mod_cast hlarge

/-- **A decimal that is a legal fraction is read as this fraction.** -/
theorem IsLegal.ofDecimal?_eq_some {m : Nat} {e : ℤ} (h : IsLegal m e) (negative : Bool)
    {digits : Nat} {power : ℤ} (hvalue : decimalValue digits power = m * 2 ^ e) :
    ofDecimal? negative digits power = some ⟨negative, m, e⟩ := by
  have hdigits : digits ≠ 0 := by
    rw [Ne, ← @decimalValue_eq_zero _ power, hvalue]
    exact h.value_pos.ne'
  obtain ⟨hlow, hhigh⟩ := h.log_bounds
  rw [ofDecimal?_eq negative hdigits, hvalue, if_neg (by omega), if_neg (by omega)]
  exact h.ofFraction?_eq_some negative (scale_pos (by decide) _ _ Nat.one_pos)
    ((ratio_decimal digits power).trans hvalue)

/-! ## The shortest decimal -/

theorem decimalValue_exactDecimal (x : Binary64) :
    decimalValue x.exactDecimal.1 x.exactDecimal.2 = x.mantissa * 2 ^ x.exponent := by
  obtain ⟨negative, m, e⟩ := x
  cases e with
  | ofNat e =>
    change ((m * 2 ^ e : Nat) : ℚ) * 10 ^ (0 : ℤ) = m * 2 ^ (e : ℤ)
    rw [zpow_zero, mul_one, zpow_natCast]
    push_cast
    rfl
  | negSucc e =>
    change ((m * 5 ^ (e + 1) : Nat) : ℚ) * 10 ^ Int.negSucc e = m * 2 ^ Int.negSucc e
    have hten : (10 : ℚ) ^ (e + 1) = 5 ^ (e + 1) * 2 ^ (e + 1) := by rw [← mul_pow]; norm_num
    rw [zpow_negSucc, zpow_negSucc, hten]
    push_cast
    field_simp

theorem roundHalfEven_eq_or (n d : Nat) :
    roundHalfEven n d = n / d ∨ roundHalfEven n d = n / d + 1 := by
  rw [roundHalfEven]
  split
  · exact .inl rfl
  · split
    · exact .inr rfl
    · rcases Nat.mod_two_eq_zero_or_one (n / d) with h | h
      · exact .inl (by rw [h, Nat.add_zero])
      · exact .inr (by rw [h])

theorem ofDecimal?_decimalWith? {x : Binary64} {point : ℤ} {count : Nat} {r : Nat × ℤ}
    (h : x.decimalWith? point count = some r) : ofDecimal? x.negative r.1 r.2 = some x := by
  rw [decimalWith?] at h
  dsimp only at h
  split at h
  case h_1 hlower hnext =>
    cases h
    rcases roundHalfEven_eq_or _ _ with hr | hr
    · rw [hr]
      exact eq_of_beq hlower
    · rw [hr]
      exact eq_of_beq hnext
  case h_2 hlower _ =>
    cases h
    exact eq_of_beq hlower
  case h_3 _ hnext =>
    cases h
    exact eq_of_beq hnext
  case h_4 => cases h

/-- **The shortest decimal of a fraction is read as this fraction.** -/
theorem ofDecimal?_shortest {x : Binary64} (h : x.IsRounded) (hzero : x.mantissa ≠ 0) :
    ofDecimal? x.negative x.shortest.1 x.shortest.2 = some x := by
  have hexact : ofDecimal? x.negative x.exactDecimal.1 x.exactDecimal.2 = some x := by
    cases h with
    | zero => exact absurd rfl hzero
    | legal negative h => exact h.ofDecimal?_eq_some negative (decimalValue_exactDecimal _)
  rw [shortest]
  dsimp only
  cases hfound : (List.range 17).findSome? fun i =>
      x.decimalWith? (pointOf (scale 2 x.exponent x.mantissa 1).1
        (scale 2 x.exponent x.mantissa 1).2) (i + 1) with
  | none => exact hexact
  | some r =>
    obtain ⟨i, _, hr⟩ := List.exists_of_findSome?_eq_some hfound
    exact ofDecimal?_decimalWith? hr

end QueryPipeline.Binary64
