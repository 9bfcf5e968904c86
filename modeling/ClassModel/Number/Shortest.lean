import ClassModel.Number.Double

/-!
# The shortest decimal

The fewest decimal digits that still round to a given number, and of those the nearest to it. For
each count of digits only the two neighbours of the number on that decimal grid can do; which of
them comes first if they are equally near is left to the caller.
-/

namespace ClassModel.Number

/-- The choice between two decimals that are equally near: the one with the even last digit, or the
one further from zero. -/
inductive Tie where
  | even
  | away
  deriving DecidableEq, Repr

def Tie.takesLower : Tie → Nat → Bool
  | even, q => q % 2 == 0
  | away, _ => false

structure Decimal where
  digits : Nat
  exponent : Int
  deriving DecidableEq, Repr

namespace Decimal

def ratio (x : Decimal) : Nat × Nat := scaled 10 x.digits 1 x.exponent

def trimmed : Nat → Decimal → Decimal
  | 0, x => x
  | n + 1, x =>
    if x.digits % 10 = 0 ∧ x.digits ≠ 0 then trimmed n ⟨x.digits / 10, x.exponent + 1⟩ else x

end Decimal

namespace Double

/-- Half-way to the number below, in quarters of the last place. Below a power of two the numbers
are closer together. -/
def lowerQuarters (x : Double) : Nat :=
  if x.mantissa = Nat.pow 2 52 ∧ -1074 < x.exponent then 4 * x.mantissa - 1 else 4 * x.mantissa - 2

def upperQuarters (x : Double) : Nat := 4 * x.mantissa + 2

/-- The decimal lies where everything is rounded to `x`; the ends belong to an even mantissa. -/
def attracts (x : Double) (c : Decimal) : Bool :=
  let (n, d) := c.ratio
  let (lo, unit) := scaled 2 x.lowerQuarters 1 (x.exponent - 2)
  let (hi, _) := scaled 2 x.upperQuarters 1 (x.exponent - 2)
  let (a, b, c) := (lo * d, n * unit, hi * d)
  if x.mantissa % 2 = 0 then decide (a ≤ b ∧ b ≤ c) else decide (a < b ∧ b < c)

def stepsToReach (den : Nat) : Nat → Nat → Nat
  | 0, _ => 0
  | n + 1, num => if den ≤ num then 0 else stepsToReach den n (num * 10) + 1

def leadingPlace (num den : Nat) : Int :=
  if den ≤ num then ((toString (num / den)).length : Int) - 1
  else -(stepsToReach den 400 num : Int)

/-- The decimals next to the number whose last digit stands at `place`, the nearer one first. -/
def neighbours (tie : Tie) (x : Double) (place : Int) : List Decimal :=
  let (n, d) := x.ratio
  let (a, b) := scaled 10 n d (-place)
  let q := a / b
  let below : Decimal := ⟨q, place⟩
  let above : Decimal := ⟨q + 1, place⟩
  let r := a % b
  if 2 * r < b ∨ (2 * r = b ∧ tie.takesLower q) then [below, above] else [above, below]

def shortest (tie : Tie) (x : Double) : Decimal :=
  if x.mantissa = 0 then ⟨0, 0⟩
  else
    let (n, d) := x.ratio
    let top := leadingPlace n d
    let hit := (List.range 17).findSome? fun (k : Nat) =>
      (neighbours tie x (top - (k : Int))).find? x.attracts
    match hit with
    | some c => c.trimmed 20
    | none => ⟨x.mantissa, 0⟩

end Double

end ClassModel.Number
