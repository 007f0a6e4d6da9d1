import QueryPipeline.Text.Decimal

/-!
# Binary floating point

A number with a fraction or an exponent is kept as the nearest binary fraction of 53 bits.  The
value is exact, `± mantissa · 2 ^ exponent`, and all arithmetic here is on natural numbers, so that
two numbers can be compared and a decimal can be rounded without any machine operation.

The text of a number has the fewest digits that are read back as the same number.
-/

namespace QueryPipeline

/-- A finite binary fraction, `± mantissa · 2 ^ exponent`. -/
structure Binary64 where
  negative : Bool
  mantissa : Nat
  exponent : Int
deriving DecidableEq, Repr

namespace Binary64

def mantissaBits : Nat := 53
def leastExponent : Int := -1074
def greatestExponent : Int := 971

/-- A fraction of natural numbers times a power of a base, as a fraction of natural numbers. -/
def scale (base : Nat) (power : Int) (numerator denominator : Nat) : Nat × Nat :=
  match power with
  | .ofNat p => (numerator * Nat.pow base p, denominator)
  | .negSucc p => (numerator, denominator * Nat.pow base (p + 1))

/-- The whole number nearest to a fraction; a half goes to the even neighbour. -/
def roundHalfEven (numerator denominator : Nat) : Nat :=
  let quotient := numerator / denominator
  let twice := 2 * (numerator % denominator)
  if twice < denominator then quotient
  else if denominator < twice then quotient + 1
  else quotient + quotient % 2

/-- The power of two that a positive fraction reaches: the greatest `k` with `2 ^ k ≤ n / d`. -/
def topPower (numerator denominator : Nat) : Int :=
  let guess : Int := Int.ofNat numerator.log2 - Int.ofNat denominator.log2
  let (n, d) := scale 2 (-guess) numerator denominator
  if d ≤ n then guess else guess - 1

/-- The binary fraction of a rounded mantissa, if it is in range.  Rounding up may have made a power
of two of the mantissa. -/
def ofMantissa? (negative : Bool) (mantissa : Nat) (exponent : Int) : Option Binary64 :=
  let (mantissa, exponent) :=
    if mantissa = Nat.pow 2 mantissaBits then (Nat.pow 2 (mantissaBits - 1), exponent + 1)
    else (mantissa, exponent)
  if mantissa = 0 then some ⟨negative, 0, 0⟩
  else if greatestExponent < exponent then none
  else some ⟨negative, mantissa, exponent⟩

/-- The binary fraction nearest to a fraction of natural numbers, if it is in range. -/
def ofFraction? (negative : Bool) (numerator denominator : Nat) : Option Binary64 :=
  if numerator = 0 then some ⟨negative, 0, 0⟩
  else
    let exponent := max (topPower numerator denominator - (mantissaBits - 1)) leastExponent
    let (n, d) := scale 2 (-exponent) numerator denominator
    ofMantissa? negative (roundHalfEven n d) exponent

/-- The binary fraction nearest to `digits · 10 ^ power`, if it is in range.  Powers so far out that
every such number is out of range, or is nearest to zero, are decided by their size alone. -/
def ofDecimal? (negative : Bool) (digits : Nat) (power : Int) : Option Binary64 :=
  let size : Int := power + (Text.decimal digits).length
  if digits = 0 ∨ size < -330 then some ⟨negative, 0, 0⟩
  else if 310 < size then none
  else
    let (n, d) := scale 10 power digits 1
    ofFraction? negative n d

def neg (x : Binary64) : Binary64 :=
  { x with negative := !x.negative }

def isZero (x : Binary64) : Bool :=
  x.mantissa == 0

/-- Whether a binary fraction is a given whole number. -/
def equalsInt (x : Binary64) (i : Int) : Bool :=
  let (n, d) := scale 2 x.exponent x.mantissa 1
  let signed : Int := if x.negative then -Int.ofNat n else Int.ofNat n
  signed == i * Int.ofNat d

/-- Equality of values: the two zeros are equal. -/
def same (x y : Binary64) : Bool :=
  x == y || (x.isZero && y.isZero)

/-! ## The shortest decimal -/

/-- The decimal point of a positive fraction: the `k` with `10 ^ (k - 1) ≤ n / d < 10 ^ k`. -/
def pointOf (numerator denominator : Nat) : Int :=
  if denominator ≤ numerator then (Text.decimal (numerator / denominator)).length
  else
    let size := (Text.decimal (denominator / numerator)).length
    if denominator = numerator * Nat.pow 10 (size - 1) then 2 - Int.ofNat size
    else 1 - Int.ofNat size

/-- The decimal of a given number of digits that reads back, the nearer of the two neighbours. -/
def decimalWith? (x : Binary64) (point : Int) (count : Nat) : Option (Nat × Int) :=
  let power := point - count
  let (n, d) := scale 2 x.exponent x.mantissa 1
  let (n, d) := scale 10 (-power) n d
  let lower := n / d
  let fits (digits : Nat) : Bool := ofDecimal? x.negative digits power == some x
  match fits lower, fits (lower + 1) with
  | true, true => some (roundHalfEven n d, power)
  | true, false => some (lower, power)
  | false, true => some (lower + 1, power)
  | false, false => none

/-- A decimal that is a number, to the last digit. -/
def exactDecimal (x : Binary64) : Nat × Int :=
  match x.exponent with
  | .ofNat e => (x.mantissa * Nat.pow 2 e, 0)
  | .negSucc e => (x.mantissa * Nat.pow 5 (e + 1), .negSucc e)

/-- Digits and power of ten of the shortest decimal that reads back as a number that is not zero.
Seventeen digits are always enough; behind the search stands the exact decimal. -/
def shortest (x : Binary64) : Nat × Int :=
  let (n, d) := scale 2 x.exponent x.mantissa 1
  let point := pointOf n d
  ((List.range 17).findSome? fun i => x.decimalWith? point (i + 1)).getD x.exactDecimal

/-! ## Layout -/

/-- How the digits of a number are laid out: the positions of the decimal point that are written
without an exponent, and the least number of digits of an exponent. -/
structure Layout where
  leastPoint : Int
  greatestPoint : Int
  exponentDigits : Nat

/-- Numbers from `0.0001` to below `10 ^ 16` are written without an exponent. -/
def layout : Layout := ⟨-3, 16, 2⟩

def exponentText (width : Nat) (e : Int) : List Char :=
  let digits := Text.decimal e.natAbs
  (if e < 0 then '-' else '+') :: (List.replicate (width - digits.length) '0' ++ digits)

/-- Lay out digits whose decimal point stands after the first `point` of them. -/
def arrange (l : Layout) (digits : List Char) (point : Int) : List Char :=
  if l.leastPoint ≤ point ∧ point ≤ l.greatestPoint then
    if point ≤ 0 then '0' :: '.' :: (List.replicate point.natAbs '0' ++ digits)
    else if digits.length ≤ point.toNat then
      digits ++ List.replicate (point.toNat - digits.length) '0' ++ ['.', '0']
    else digits.take point.toNat ++ '.' :: digits.drop point.toNat
  else
    let fraction := digits.drop 1
    digits.take 1 ++ (if fraction.isEmpty then [] else '.' :: fraction) ++
      'e' :: exponentText l.exponentDigits (point - 1)

def dropTrailingZeros (digits : List Char) : List Char :=
  (digits.reverse.dropWhile (· == '0')).reverse

/-- The text of a number. -/
def chars (x : Binary64) : List Char :=
  let body :=
    if x.isZero then ['0', '.', '0']
    else
      let (digits, power) := x.shortest
      let written := Text.decimal digits
      arrange layout (dropTrailingZeros written) (written.length + power)
  if x.negative then '-' :: body else body

def text (x : Binary64) : String :=
  String.ofList x.chars

end Binary64
end QueryPipeline
