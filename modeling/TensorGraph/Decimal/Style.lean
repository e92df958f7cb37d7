import TensorGraph.Decimal.Digits

/-!
A `Style` says how chosen digits are laid out. `Style.render` writes a number with the fewest
digits that read back to it, `scientific` with a set number of digits and always an exponent.
-/

namespace TensorGraph.Decimal

structure Style where
  /-- The exponents of the leading digit that are written without an exponent part, from the
  first to below the second; all of them when absent. -/
  positional : Option (Int × Int)
  /-- Is `.0` written after a whole number? -/
  pointZero : Bool

def digitsOf (n : Nat) : List Char := Nat.toDigits 10 n

def zeros (n : Nat) : List Char := List.replicate n '0'

def Expansion.leading (d : Expansion) : Int := d.exponent + ((digitsOf d.digits).length - 1 : Nat)

def Expansion.positional (d : Expansion) (pointZero : Bool) : List Char :=
  let ds := digitsOf d.digits
  if 0 ≤ d.exponent then
    ds ++ zeros d.exponent.toNat ++ (if pointZero then ['.', '0'] else [])
  else
    let places := (-d.exponent).toNat
    if places < ds.length then ds.take (ds.length - places) ++ '.' :: ds.drop (ds.length - places)
    else '0' :: '.' :: zeros (places - ds.length) ++ ds

/-- One digit, the others after a point, and the exponent of the first. -/
def Expansion.exponential (d : Expansion) : List Char :=
  let e := (toString d.leading).toList
  match digitsOf d.digits with
  | c :: r :: rest => c :: '.' :: r :: rest ++ 'e' :: e
  | ds => ds ++ 'e' :: e

def Style.layout (s : Style) (d : Expansion) : List Char :=
  match s.positional with
  | none => d.positional s.pointZero
  | some (first, last) =>
    if first ≤ d.leading ∧ d.leading < last then d.positional s.pointZero else d.exponential

def signed (magnitude : Binary → List Char) : Number → String
  | .nan => "NaN"
  | .infinite negative => if negative then "-inf" else "inf"
  | .finite negative x => String.ofList ((if negative then ['-'] else []) ++ magnitude x)

/-- Writes a number with the fewest digits that read back to it. -/
def Style.render (s : Style) : Number → String :=
  signed fun x => s.layout (if x.mantissa = 0 then ⟨0, 0⟩ else x.shortest)

def scientific (places : Nat) : Number → String :=
  signed fun x =>
    if x.mantissa = 0 then '0' :: '.' :: zeros places ++ ['e', '0']
    else (x.significant (places + 1)).exponential

/-- All digits, however many, and no point after a whole number. -/
def Style.plain : Style := ⟨none, false⟩

end TensorGraph.Decimal
