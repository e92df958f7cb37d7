import TensorGraph.Decimal.Binary

/-!
Two ways to write a magnitude in decimal. `shortest` takes the fewest digits that read back to
the same float, and of the decimals with that many digits the nearest. `significant` rounds the
exact value to a number of digits. Both work in exact integers.
-/

namespace TensorGraph.Decimal

/-- The decimal `digits * 10 ^ exponent`. -/
structure Expansion where
  digits : Nat
  exponent : Int
deriving DecidableEq, Repr

def compareScaled (a : Nat) (i : Int) (b : Nat) (j : Int) : Ordering :=
  compare (a * Nat.pow 10 i.toNat * Nat.pow 2 (-j).toNat)
    (b * Nat.pow 2 j.toNat * Nat.pow 10 (-i).toNat)

/-- Does reading the decimal give this float? The decimals that do lie between the midpoints to
the two neighbouring floats, the midpoints included when the mantissa is even. -/
def Binary.readsBack (x : Binary) (d : Expansion) : Bool :=
  let low := if x.narrowBelow then 4 * x.mantissa - 1 else 4 * x.mantissa - 2
  let high := 4 * x.mantissa + 2
  let closed := x.mantissa % 2 == 0
  let fromLow := compareScaled d.digits d.exponent low (x.exponent - 2)
  let fromHigh := compareScaled d.digits d.exponent high (x.exponent - 2)
  (fromLow == .gt || closed && fromLow == .eq) && (fromHigh == .lt || closed && fromHigh == .eq)

/-- The number of digits before the decimal point of a positive magnitude, negative when zeros
follow the point: the least `k` with `x < 10 ^ k`. -/
def Binary.magnitude (x : Binary) : Int :=
  let guess := (x.mantissa.log2 + x.exponent) * 30103 / 100000
  let below (k : Int) : Bool := compareScaled 1 k x.mantissa x.exponent == .gt
  if below (guess - 1) then guess - 1
  else if below guess then guess
  else if below (guess + 1) then guess + 1
  else guess + 2

def Binary.inUnits (x : Binary) (g : Int) : Nat × Nat :=
  (x.mantissa * Nat.pow 2 x.exponent.toNat * Nat.pow 10 (-g).toNat,
    Nat.pow 2 (-x.exponent).toNat * Nat.pow 10 g.toNat)

/-- The multiple of `10 ^ g` that reads back, if one of the two around the magnitude does; of
two the nearer, and the upper one on a tie. -/
def Binary.onGrid (x : Binary) (g : Int) : Option Expansion :=
  let (num, den) := x.inUnits g
  let lower : Expansion := ⟨num / den, g⟩
  let upper : Expansion := ⟨num / den + 1, g⟩
  match x.readsBack lower, x.readsBack upper with
  | true, true => some (if 2 * (num % den) < den then lower else upper)
  | true, false => some lower
  | false, true => some upper
  | false, false => none

def Expansion.strip : Nat → Expansion → Expansion
  | 0, d => d
  | n + 1, d => if d.digits % 10 = 0 then strip n ⟨d.digits / 10, d.exponent + 1⟩ else d

def Binary.exact (x : Binary) : Expansion :=
  if 0 ≤ x.exponent then ⟨x.mantissa * Nat.pow 2 x.exponent.toNat, 0⟩
  else ⟨x.mantissa * Nat.pow 5 (-x.exponent).toNat, x.exponent⟩

/-- The decimal of fewest digits that reads back to a positive magnitude. Seventeen digits always
suffice for floats of 64 bits. -/
def Binary.shortest (x : Binary) : Expansion :=
  let k := x.magnitude
  match (List.range 17).findSome? fun n => x.onGrid (k - (n + 1 : Nat)) with
  | some d => d.strip 17
  | none => x.exact

def roundHalfEven (num den : Nat) : Nat :=
  match compare (2 * (num % den)) den with
  | .lt => num / den
  | .gt => num / den + 1
  | .eq => if num / den % 2 = 0 then num / den else num / den + 1

def Binary.significant (x : Binary) (n : Nat) : Expansion :=
  let g := x.magnitude - n
  let (num, den) := x.inUnits g
  let digits := roundHalfEven num den
  if digits = Nat.pow 10 n then ⟨Nat.pow 10 (n - 1), g + 1⟩ else ⟨digits, g⟩

end TensorGraph.Decimal
