import BootEntropy.Lib.Double
import BootEntropy.Lib.Numerals

/-!
# Floats of Python

`float(text)`, the order of floats, the functions of `statistics`, and fixed-point
printing.
-/

namespace BootEntropy.Lib

set_option autoImplicit false

/-! ## `float(str)` -/

/-- Digits with single underscores between them; an absent group is zero. -/
def digitGroup : Text → Option Nat
  | [] => some 0
  | group => numeral digitValue 10 group

/-- The digits behind the point are counted without their underscores. -/
def fractionDigits (group : Text) : Nat := (group.filter (· ≠ '_')).length

/-- `digits`, `digits.`, `.digits` or `digits.digits`, with the decimal exponent of its
last digit. -/
def mantissa (text : Text) : Option (Nat × Nat) :=
  let whole := text.takeWhile (· ≠ '.')
  let fraction := (text.dropWhile (· ≠ '.')).drop 1
  if whole = [] ∧ fraction = [] then none
  else do
    let units ← digitGroup whole
    let behind ← digitGroup fraction
    let places := fractionDigits fraction
    return (units * 10 ^ places + behind, places)

def exponent : Text → Option Int
  | [] => some 0
  | _ :: '+' :: digits => (numeral digitValue 10 digits).map Int.ofNat
  | _ :: '-' :: digits => (numeral digitValue 10 digits).map fun value => -(value : Int)
  | _ :: digits => (numeral digitValue 10 digits).map Int.ofNat

def isExponentLetter (c : Char) : Bool := c = 'e' || c = 'E'

def unsignedFloat (text : Text) : Option Double :=
  let lower := text.map Char.toLower
  if lower = "inf".toList ∨ lower = "infinity".toList then some (.infinite false)
  else if lower = "nan".toList then some .nan
  else do
    let (digits, places) ← mantissa (text.takeWhile fun c => !isExponentLetter c)
    let shift ← exponent (text.dropWhile fun c => !isExponentLetter c)
    return Double.ofRat (digits * (10 : ℚ) ^ (shift - places))

def Double.neg : Double → Double
  | .finite value => .finite (-value)
  | .infinite negative => .infinite !negative
  | .nan => .nan

/-- `float(text)`; `none` is a `ValueError`. -/
def parseFloat (text : Text) : Option Double :=
  match stripWith intSpace text with
  | '+' :: rest => unsignedFloat rest
  | '-' :: rest => (unsignedFloat rest).map Double.neg
  | rest => unsignedFloat rest

/-! ## Statistics -/

namespace Double

def Finite : Double → Prop
  | .finite _ => True
  | _ => False

instance : (x : Double) → Decidable x.Finite
  | .finite _ => isTrue trivial
  | .infinite _ => isFalse id
  | .nan => isFalse id

/-- `x < y`; a NaN is in no order. -/
def Less : Double → Double → Prop
  | .finite x, .finite y => x < y
  | .finite _, .infinite negative => negative = false
  | .infinite negative, .finite _ => negative = true
  | .infinite first, .infinite second => first = true ∧ second = false
  | _, _ => False

instance : (x y : Double) → Decidable (x.Less y)
  | .finite x, .finite y => inferInstanceAs (Decidable (x < y))
  | .finite _, .infinite negative => inferInstanceAs (Decidable (negative = false))
  | .infinite negative, .finite _ => inferInstanceAs (Decidable (negative = true))
  | .infinite first, .infinite second => inferInstanceAs (Decidable (first = true ∧ second = false))
  | .nan, _ => isFalse id
  | .finite _, .nan => isFalse id
  | .infinite _, .nan => isFalse id

/-- `min(first, *rest)`: the first of the least. -/
def least (first : Double) (rest : List Double) : Double :=
  rest.foldl (fun best x => if x.Less best then x else best) first

def greatest (first : Double) (rest : List Double) : Double :=
  rest.foldl (fun best x => if best.Less x then x else best) first

def value : Double → ℚ
  | .finite value => value
  | _ => 0

/-- `statistics.mean`. Floats that are not finite outweigh the others. -/
def mean (values : List Double) : Double :=
  match values.filter fun x => ¬x.Finite with
  | [] => ofRat ((values.map value).sum / values.length)
  | special :: others => (others.foldl add special).div (.finite values.length)

end Double

/-! ## Printing -/

/-- `f"{value:.{digits}f}"` -/
def fixedPoint (digits : Nat) (value : ℚ) : Text :=
  let scaled := (roundEven (|value| * 10 ^ digits)).toNat
  let sign := if value < 0 then ['-'] else []
  let fraction := if digits = 0 then [] else '.' :: paddedDecimal digits (scaled % 10 ^ digits)
  sign ++ decimal (scaled / 10 ^ digits) ++ fraction

/-- `math.isclose` of two floats. -/
def isClose (x y : ℚ) : Bool :=
  let relTol := roundDouble (1 / 10 ^ 9)
  let diff := |roundDouble (y - x)|
  x = y || diff ≤ |roundDouble (relTol * y)| || diff ≤ |roundDouble (relTol * x)|

example : parseFloat " -1_0.25e+1\n".toList = some (.finite (-205 / 2)) := by decide +kernel
example : parseFloat "1_.5".toList = none := by decide +kernel
example : fixedPoint 1 (-5 / 4) = "-1.2".toList := by decide +kernel

end BootEntropy.Lib
