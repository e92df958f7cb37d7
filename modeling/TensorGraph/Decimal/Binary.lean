/-!
A binary float is not a number, an infinity, or a finite value `mantissa * 2 ^ exponent` with a
sign. The finite values are kept as exact integers, so that decimals can be compared with them
without rounding.
-/

namespace TensorGraph.Decimal

/-- The widths of the fields of a binary float. -/
structure Layout where
  fractionBits : Nat
  exponentBits : Nat

def Layout.single : Layout := ⟨23, 8⟩

def Layout.double : Layout := ⟨52, 11⟩

/-- The magnitude `mantissa * 2 ^ exponent`. When `narrowBelow` holds, the gap to the float below
is half the gap to the float above. -/
structure Binary where
  mantissa : Nat
  exponent : Int
  narrowBelow : Bool
deriving DecidableEq, Repr

inductive Number where
  | nan
  | infinite (negative : Bool)
  | finite (negative : Bool) (magnitude : Binary)
deriving DecidableEq, Repr

def Number.ofBits (l : Layout) (bits : Nat) : Number :=
  let hidden := Nat.pow 2 l.fractionBits
  let exponents := Nat.pow 2 l.exponentBits
  let fraction := bits % hidden
  let biased := bits / hidden % exponents
  let negative := bits / (hidden * exponents) % 2 == 1
  let least : Int := 2 - (exponents / 2 : Nat) - l.fractionBits
  if biased = exponents - 1 then
    if fraction = 0 then .infinite negative else .nan
  else if biased = 0 then .finite negative ⟨fraction, least, false⟩
  else
    .finite negative
      ⟨hidden + fraction, least + biased - 1, fraction == 0 && biased != 1⟩

def Number.ofSingle (x : Float32) : Number := .ofBits .single x.toBits.toNat

def Number.ofDouble (x : Float) : Number := .ofBits .double x.toBits.toNat

end TensorGraph.Decimal
