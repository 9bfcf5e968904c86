/-!
# Double-precision numbers

A finite number without a sign is `mantissa * 2 ^ exponent` with a mantissa below `2 ^ 53`; normal
numbers have the largest mantissa they can, and the exponent is never below -1074. Rounding takes
the nearest such number to a ratio, the one with the even mantissa if two are equally near, and
fails where the nearest would be too large.
-/

namespace ClassModel.Number

structure Double where
  mantissa : Nat
  exponent : Int
  deriving DecidableEq, Repr

/-- The quotient to the nearest whole number, a half to the even one. -/
def divNearest (num den : Nat) : Nat :=
  let q := num / den
  let r := num % den
  if 2 * r < den then q
  else if den < 2 * r then q + 1
  else if q % 2 = 0 then q else q + 1

/-- The ratio times `base ^ e`, as a ratio. -/
def scaled (base num den : Nat) (e : Int) : Nat × Nat :=
  if 0 ≤ e then (num * base.pow e.toNat, den) else (num, den * base.pow (-e).toNat)

namespace Double

def zero : Double := ⟨0, 0⟩

def ratio (x : Double) : Nat × Nat := scaled 2 x.mantissa 1 x.exponent

/-- The exponent for a ratio in the range of normal numbers: the mantissa then has 53 bits. -/
def exponentFor (num den : Nat) : Int :=
  let e : Int := (num.log2 : Int) - (den.log2 : Int)
  let (n, d) := scaled 2 num den (-e)
  if d ≤ n then e - 52 else e - 53

def round? (num den : Nat) : Option Double :=
  if num = 0 then some zero
  else
    let e := max (exponentFor num den) (-1074)
    let (n, d) := scaled 2 num den (-e)
    let m := divNearest n d
    let x : Double := if m = Nat.pow 2 53 then ⟨Nat.pow 2 52, e + 1⟩ else ⟨m, e⟩
    if 971 < x.exponent then none else some x

def mul? (x y : Double) : Option Double :=
  let (a, b) := x.ratio
  let (c, d) := y.ratio
  round? (a * c) (b * d)

def div? (x y : Double) : Option Double :=
  let (a, b) := x.ratio
  let (c, d) := y.ratio
  round? (a * d) (b * c)

/-- The number nearest to `digits * 10 ^ e`. Far outside the range of the type the power is not
worked out: such a number is zero or too large. -/
def ofDecimal? (digits : Nat) (e : Int) : Option Double :=
  if digits = 0 then some zero
  else
    let size : Int := (toString digits).length + e
    if size < -400 then some zero
    else if 400 < size then none
    else
      let (n, d) := scaled 10 digits 1 e
      round? n d

end Double

end ClassModel.Number
