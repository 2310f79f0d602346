/-!
# Double-precision numbers in decimal

A number in settings is held with double precision and shown by the fewest decimal digits that read
back as the same double. Both directions are exact arithmetic on natural numbers: a decimal is
rounded to the nearest double, and a double is named by the shortest decimal inside the interval
that rounds to it.
-/

namespace TsxCompiler

/-- A number in decimal: `digits * 10 ^ exponent`, with its sign. -/
structure Decimal where
  negative : Bool
  digits : Nat
  exponent : Int
deriving DecidableEq, Repr

/-- A double without its sign: `mantissa * 2 ^ exponent`. -/
structure Double where
  mantissa : Nat
  exponent : Int
deriving DecidableEq, Repr

/-- A positive fraction. -/
structure Fraction where
  num : Nat
  den : Nat
deriving DecidableEq, Repr

namespace Fraction

/-- `base ^ exponent` -/
def power (base : Nat) (exponent : Int) : Fraction :=
  if 0 ≤ exponent then ⟨Nat.pow base exponent.toNat, 1⟩
  else ⟨1, Nat.pow base (-exponent).toNat⟩

def mul (a b : Fraction) : Fraction := ⟨a.num * b.num, a.den * b.den⟩

/-- `n * base ^ exponent` -/
def scaled (n base : Nat) (exponent : Int) : Fraction := mul ⟨n, 1⟩ (power base exponent)

def le (a b : Fraction) : Bool := a.num * b.den ≤ b.num * a.den

def lt (a b : Fraction) : Bool := a.num * b.den < b.num * a.den

/-- The distance of two fractions. -/
def distance (a b : Fraction) : Fraction :=
  ⟨max (a.num * b.den) (b.num * a.den) - min (a.num * b.den) (b.num * a.den), a.den * b.den⟩

/-- The whole number below a fraction divided by `base ^ exponent`. -/
def floorAt (a : Fraction) (base : Nat) (exponent : Int) : Nat :=
  let b := a.mul (power base (-exponent))
  b.num / b.den

/-- The nearest whole number to a fraction divided by `base ^ exponent`; a half goes to the even
neighbour. -/
def roundAt (a : Fraction) (base : Nat) (exponent : Int) : Nat :=
  let b := a.mul (power base (-exponent))
  let whole := b.num / b.den
  let twice := 2 * (b.num % b.den)
  if twice < b.den || (twice == b.den && whole % 2 == 0) then whole else whole + 1

/-- The difference of the binary magnitudes of numerator and denominator. -/
def magnitude (a : Fraction) : Int := (Nat.log2 a.num : Int) - (Nat.log2 a.den : Int)

end Fraction

/-- Which of two decimals stands for a value halfway between them. -/
inductive Tie where
  | up
  /-- The one whose last digit is even. -/
  | toEven
deriving DecidableEq, Repr

namespace Double

/-- The least mantissa of a double that is not among the smallest ones. -/
def leastMantissa : Nat := Nat.pow 2 52

/-- The double nearest to a positive fraction, unless it is too large for one. -/
def ofFraction (a : Fraction) : Option Double :=
  let guess := a.magnitude - 52
  let exponent := max (if a.floorAt 2 guess < leastMantissa then guess - 1 else guess) (-1074)
  let mantissa := a.roundAt 2 exponent
  let (mantissa, exponent) :=
    if mantissa = 2 * leastMantissa then (leastMantissa, exponent + 1) else (mantissa, exponent)
  if exponent > 971 then none else some ⟨mantissa, exponent⟩

/-- The value of a double. -/
def value (x : Double) : Fraction := .scaled x.mantissa 2 x.exponent

/-- Whether a fraction rounds to a double. The ends of the interval belong to it when the mantissa
is even; below a power of two the interval is only half as wide. -/
def covers (x : Double) (a : Fraction) : Bool :=
  let below := if x.mantissa = leastMantissa && x.exponent > -1074 then 1 else 2
  let low := Fraction.scaled (4 * x.mantissa - below) 2 (x.exponent - 2)
  let high := Fraction.scaled (4 * x.mantissa + 2) 2 (x.exponent - 2)
  if x.mantissa % 2 == 0 then low.le a && a.le high else low.lt a && a.lt high

/-- The exponent of the leading decimal digit. -/
def decimalExponent (x : Double) : Int :=
  let v := x.value
  let guess := v.magnitude * 30103 / 100000
  ([guess - 2, guess - 1, guess, guess + 1, guess + 2].find? fun k =>
    (Fraction.power 10 k).le v && v.lt (Fraction.power 10 (k + 1))).getD guess

/-- Whether the upper of two neighbours `n` and `n + 1` is taken, by their distances. -/
def takesUpper (tie : Tie) (n : Nat) (below above : Fraction) : Bool :=
  above.lt below || (above.le below && (tie == .up || n % 2 == 1))

/-- The decimal with the given number of digits that names a double, if there is one: of the two
neighbours the nearer. -/
def withDigits (x : Double) (tie : Tie) (count : Nat) : Option (Nat × Int) :=
  let exponent := x.decimalExponent - count + 1
  let low := x.value.floorAt 10 exponent
  let candidates := [low, low + 1].filter fun n => x.covers (.scaled n 10 exponent)
  match candidates with
  | [] => none
  | [n] => some (n, exponent)
  | a :: b :: _ =>
    let gap (n : Nat) := (Fraction.scaled n 10 exponent).distance x.value
    some (if takesUpper tie a (gap a) (gap b) then b else a, exponent)

/-- The shortest decimal that names a double other than zero. Seventeen digits always do. A neighbour
that is the next power of ten ends in a zero, which is dropped. -/
def shortest (x : Double) (tie : Tie) : Nat × Int :=
  let (digits, exponent) :=
    ((List.range 17).findSome? fun i => x.withDigits tie (i + 1)).getD (x.mantissa, 0)
  if digits % 10 = 0 then (digits / 10, exponent + 1) else (digits, exponent)

/-- The shortest decimal that names a double with a sign. -/
def toDecimal (x : Double) (negative : Bool) (tie : Tie) : Decimal :=
  if x.mantissa = 0 then ⟨negative, 0, 0⟩
  else
    let (digits, exponent) := x.shortest tie
    ⟨negative, digits, exponent⟩

end Double

/-- A number as settings hold it. -/
inductive Number where
  | finite (negative : Bool) (size : Double)
  | infinite (negative : Bool)
  | notANumber
deriving DecidableEq, Repr

namespace Decimal

/-- The digits of a decimal. -/
def digitChars (d : Decimal) : List Char := (toString d.digits).toList

/-- The number of digits before the point. -/
def places (d : Decimal) : Int := d.digitChars.length + d.exponent

end Decimal

namespace Number

/-- Zero with a sign. -/
def zero (negative : Bool) : Number := .finite negative ⟨0, -1074⟩

/-- The number that a decimal text stands for. From `10 ^ 309` on there are no doubles, and below
`10 ^ (-324)` the nearest one is zero, so that only exponents of moderate size are worked out. -/
def ofDecimal (d : Decimal) : Number :=
  if d.digits = 0 || d.places < -323 then zero d.negative
  else if 309 < d.places then .infinite d.negative
  else
    match Double.ofFraction (.scaled d.digits 10 d.exponent) with
    | none => .infinite d.negative
    | some x => .finite d.negative x

/-- Whether a number is zero. -/
def isZero : Number → Bool
  | finite _ x => x.mantissa == 0
  | _ => false

end Number

namespace Decimal

/-- The sign in front of a decimal. -/
def sign (d : Decimal) : String := if d.negative then "-" else ""

/-- A decimal without an exponent, whatever its size. -/
def positional (d : Decimal) : String :=
  let digits := d.digitChars
  let body :=
    if d.digits = 0 then ['0']
    else if 0 ≤ d.exponent then digits ++ List.replicate d.exponent.toNat '0'
    else
      let behind := (-d.exponent).toNat
      let padded := List.replicate (behind + 1 - digits.length) '0' ++ digits
      padded.take (padded.length - behind) ++ '.' :: padded.drop (padded.length - behind)
  d.sign ++ String.ofList body

/-- A decimal with a signed exponent, one digit before the point. -/
def scientific (d : Decimal) : String :=
  let mantissa := match d.digitChars with
    | first :: second :: rest => first :: '.' :: second :: rest
    | digits => digits
  let mark := if d.places < 1 then "e" else "e+"
  d.sign ++ String.ofList mantissa ++ mark ++ toString (d.places - 1)

/-- A text with a point in it, so that it cannot be taken for an integer. -/
def withPoint (text : String) : String :=
  if text.toList.contains '.' then text else text ++ ".0"

/-- A decimal with a point or an exponent: up to sixteen places before the point and up to four
zeros behind it are written out. -/
def compact (d : Decimal) : String :=
  if d.digits = 0 || (-5 < d.places && d.places ≤ 16) then withPoint d.positional
  else d.scientific

end Decimal

namespace Number

/-- A number without an exponent; a tie between two shortest decimals goes up. -/
def display : Number → String
  | finite negative x => (x.toDecimal negative .up).positional
  | infinite false => "inf"
  | infinite true => "-inf"
  | notANumber => "NaN"

/-- A number with a point or an exponent; a tie between two shortest decimals goes to the even one. -/
def compact : Number → String
  | finite negative x => (x.toDecimal negative .toEven).compact
  | x => x.display

/-- A number without an exponent and with a point. -/
def displayWithPoint (x : Number) : String := Decimal.withPoint x.display

end Number

end TsxCompiler
