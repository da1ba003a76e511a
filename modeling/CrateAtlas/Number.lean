import CrateAtlas.Text.Blank

/-!
Numbers of data documents: binary fractions of 53 significant bits, written with the fewest
decimal digits that read back.
-/

namespace CrateAtlas

inductive Number where
  | finite (numerator : Int) (halvings : Nat)
  | infinite (negative : Bool)
  | undefined
  deriving DecidableEq, Repr

namespace Number

def ofInt (value : Int) : Number := .finite value 0

def reduce : Nat → Nat → Nat × Nat
  | numerator, 0 => (numerator, 0)
  | numerator, halvings + 1 =>
      if numerator % 2 = 0 then reduce (numerator / 2) halvings else (numerator, halvings + 1)

/-- The whole number nearest to a quotient; a tie goes to the even neighbour. -/
def roundQuotient (numerator denominator : Nat) : Nat :=
  let whole := numerator / denominator
  let rest := 2 * (numerator % denominator)
  if rest > denominator ∨ (rest = denominator ∧ whole % 2 = 1) then whole + 1 else whole

def scaled (numerator denominator : Nat) (shift : Int) : Nat × Nat :=
  if 0 ≤ shift then (numerator * Nat.pow 2 shift.toNat, denominator)
  else (numerator, denominator * Nat.pow 2 (-shift).toNat)

def nearest (negative : Bool) (numerator denominator : Nat) : Number :=
  if numerator = 0 then .finite 0 0
  else
    let guess : Int := 53 - (numerator.log2 : Int) + (denominator.log2 : Int)
    let first := scaled numerator denominator guess
    let exact := if first.1 / first.2 < Nat.pow 2 53 then guess else guess - 1
    let shift := min exact 1074
    let fraction := scaled numerator denominator shift
    let mantissa := roundQuotient fraction.1 fraction.2
    let sign : Int := if negative then -1 else 1
    if 0 ≤ shift then
      let lowest := reduce mantissa shift.toNat
      .finite (sign * lowest.1) lowest.2
    else
      let value := mantissa * Nat.pow 2 (-shift).toNat
      if value < Nat.pow 2 1024 then .finite (sign * value) 0 else .infinite negative

def ofDecimal (negative : Bool) (digits : Nat) (exponent : Int) : Number :=
  if digits = 0 then .finite 0 0
  else if exponent > 400 then .infinite negative
  else if exponent + (digits.log2 : Int) < -1200 then .finite 0 0
  else if 0 ≤ exponent then nearest negative (digits * Nat.pow 10 exponent.toNat) 1
  else nearest negative digits (Nat.pow 10 (-exponent).toNat)

def isWhole : Number → Bool
  | .finite _ halvings => halvings = 0
  | _ => false

def atLeast (bound : Int) : Number → Bool
  | .finite numerator halvings => bound * Int.pow 2 halvings ≤ numerator
  | .infinite negative => !negative
  | .undefined => false

def atMost (bound : Int) : Number → Bool
  | .finite numerator halvings => numerator ≤ bound * Int.pow 2 halvings
  | .infinite negative => negative
  | .undefined => false

def whole : Number → Int
  | .finite numerator halvings => numerator / Int.pow 2 halvings
  | _ => 0

def decimalPoint (numerator denominator : Nat) : Nat → Int → Int
  | 0, power => power
  | fuel + 1, power =>
      let below :=
        if 0 ≤ power then numerator < denominator * Nat.pow 10 power.toNat
        else numerator * Nat.pow 10 (-power).toNat < denominator
      if below then power else decimalPoint numerator denominator fuel (power + 1)

/-- Digits of a fraction on the grid of `count` significant digits that reads back as the
same number: the nearest neighbour, when it does. -/
def gridDigits? (numerator denominator : Nat) (point : Int) (count : Nat) : Option Nat :=
  let places : Int := count - point
  let fraction :=
    if 0 ≤ places then (numerator * Nat.pow 10 places.toNat, denominator)
    else (numerator, denominator * Nat.pow 10 (-places).toNat)
  let value := nearest false numerator denominator
  let near := roundQuotient fraction.1 fraction.2
  let low := fraction.1 / fraction.2
  let far := if near = low then low + 1 else low
  [near, far].find? fun digits => digits ≠ 0 ∧ ofDecimal false digits (-places) = value

def shortestDigits (numerator denominator : Nat) : Nat × Int :=
  let start : Int := ((numerator.log2 : Int) - (denominator.log2 : Int)) * 3 / 10 - 2
  let point := decimalPoint numerator denominator 400 start
  let found := (List.range 17).findSome? fun count =>
    gridDigits? numerator denominator point (count + 1)
  (found.getD 0, point)

def stripZeros (digits : List Char) : List Char :=
  (digits.reverse.dropWhile (· = '0')).reverse

def renderPositive (numerator denominator : Nat) : String :=
  let shortest := shortestDigits numerator denominator
  let raw := Nat.toDigits 10 shortest.1
  let digits := stripZeros raw
  let count : Int := digits.length
  -- rounding up may have carried into a further digit
  let point : Int :=
    if ofDecimal false shortest.1 (shortest.2 - raw.length) =
        nearest false numerator denominator then shortest.2
    else shortest.2 + 1
  let zeros (howMany : Int) : List Char := List.replicate howMany.toNat '0'
  String.ofList <|
    if count ≤ point ∧ point ≤ 21 then digits ++ zeros (point - count)
    else if 0 < point ∧ point ≤ 21 then
      digits.take point.toNat ++ '.' :: digits.drop point.toNat
    else if -6 < point ∧ point ≤ 0 then
      '0' :: '.' :: zeros (-point) ++ digits
    else
      let exponent := point - 1
      let tail := 'e' :: (if exponent < 0 then '-' else '+') ::
        Nat.toDigits 10 exponent.natAbs
      match digits with
      | [] => tail
      | [digit] => digit :: tail
      | digit :: more => digit :: '.' :: more ++ tail

def render : Number → String
  | .finite numerator halvings =>
      if numerator = 0 then "0"
      else
        let text :=
          if halvings = 0 ∧ numerator.natAbs < Nat.pow 2 53 then toString numerator.natAbs
          else renderPositive numerator.natAbs (Nat.pow 2 halvings)
        if numerator < 0 then "-" ++ text else text
  | .infinite negative => if negative then "-Infinity" else "Infinity"
  | .undefined => "NaN"

end CrateAtlas.Number
