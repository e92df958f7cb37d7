/-!
The error function in single precision: a rational approximation on each of four intervals of the
magnitude: below 0.84375, up to 1.25, up to 1/0.35, and up to 6; beyond that the value is one. All
steps are rounded to single precision.
-/

namespace TensorGraph.Elementwise

def polynomial (coefficients : List Float32) (x : Float32) : Float32 :=
  coefficients.foldr (fun c acc => c + x * acc) 0

/-- The error function less the identity, over the identity, near zero, in the square. -/
def erfNearZero (z : Float32) : Float32 :=
  polynomial [1.2837916613e-01, -3.2504209876e-01, -2.8481749818e-02, -5.7702702470e-03,
      -2.3763017452e-05] z /
    polynomial [1, 3.9791721106e-01, 6.5022252500e-02, 5.0813062117e-03, 1.3249473704e-04,
      -3.9602282413e-06] z

def erfcNearOne (x : Float32) : Float32 :=
  let s := x - 1
  let p := polynomial [-2.3621185683e-03, 4.1485610604e-01, -3.7220788002e-01, 3.1834661961e-01,
    -1.1089469492e-01, 3.5478305072e-02, -2.1663755178e-03] s
  let q := polynomial [1, 1.0642088205e-01, 5.4039794207e-01, 7.1828655899e-02, 1.2617121637e-01,
    1.3637083583e-02, 1.1984500103e-02] s
  1 - 8.4506291151e-01 - p / q

/-- The complement of the error function times `x * exp (x * x)`, as an exponent, in `1 / x²`. -/
def erfcTail (x s : Float32) : Float32 :=
  if x < Float32.ofBits 0x4036db6d then
    polynomial [-9.8649440333e-03, -6.9385856390e-01, -1.0558626175e+01, -6.2375331879e+01,
        -1.6239666748e+02, -1.8460508728e+02, -8.1287437439e+01, -9.8143291473e+00] s /
      polynomial [1, 1.9651271820e+01, 1.3765776062e+02, 4.3456588745e+02, 6.4538726807e+02,
        4.2900814819e+02, 1.0863500214e+02, 6.5702495575e+00, -6.0424413532e-02] s
  else
    polynomial [-9.8649431020e-03, -7.9928326607e-01, -1.7757955551e+01, -1.6063638306e+02,
        -6.3756646729e+02, -1.0250950928e+03, -4.8351919556e+02] s /
      polynomial [1, 3.0338060379e+01, 3.2579251099e+02, 1.5367296143e+03, 3.1998581543e+03,
        2.5530502930e+03, 4.7452853394e+02, -2.2440952301e+01] s

/-- The complement of the error function from 0.84375 on. The square in the exponent is split at
a short float `z`, so that it loses nothing. -/
def erfc (x : Float32) : Float32 :=
  if x < 1.25 then erfcNearOne x
  else
    let z := Float32.ofBits (x.toBits &&& 0xffffe000)
    Float32.exp (-z * z - 0.5625) * Float32.exp ((z - x) * (z + x) + erfcTail x (1 / (x * x))) / x

def erf (x : Float32) : Float32 :=
  let a := x.abs
  if x.isNaN then x
  else if a < Float32.ofBits 0x31800000 then 0.125 * (8 * x + 1.0270333290 * x)
  else if a < 0.84375 then x + x * erfNearZero (x * x)
  else
    let y := if a < 6 then 1 - erfc a else 1
    if x < 0 then -y else y

end TensorGraph.Elementwise
