import ClassModel.Number.Shortest

/-!
# Written numbers

How a floating-point number is shown. A style says between which places of the decimal point the
number is written out; outside of them it is written with an exponent and its sign. A written-out
number always has a point and a digit behind it.
-/

namespace ClassModel.Number

/-- The point may stand up to `most` digits behind the first digit and up to `least` zeros before
it; without a bound every number is written out. -/
structure Style where
  bounds : Option (Int × Int)
  tie : Tie

namespace Style

def writtenOut : Style := ⟨none, .away⟩

/-- Written out below `10 ^ 16` and down to five places behind the point. -/
def compact : Style := ⟨some (-5, 16), .even⟩

end Style

def writeOut (ds : List Char) (point : Int) : List Char :=
  let len : Int := ds.length
  if point ≤ 0 then '0' :: '.' :: (List.replicate (-point).toNat '0' ++ ds)
  else if len ≤ point then ds ++ List.replicate (point - len).toNat '0' ++ ['.', '0']
  else ds.take point.toNat ++ '.' :: ds.drop point.toNat

def withExponent (ds : List Char) (point : Int) : List Char :=
  let sign := if 0 < point then ['+'] else []
  let tail := 'e' :: (sign ++ (toString (point - 1)).toList)
  match ds with
  | [] => tail
  | [d] => d :: tail
  | d :: rest => d :: '.' :: (rest ++ tail)

def Style.show (style : Style) (negative : Bool) (x : Double) : String :=
  let sign := if negative then ['-'] else []
  let c := x.shortest style.tie
  let ds := (toString c.digits).toList
  let point := (ds.length : Int) + c.exponent
  let body :=
    if c.digits = 0 then ['0', '.', '0']
    else
      match style.bounds with
      | none => writeOut ds point
      | some (least, most) =>
        if least < point ∧ point ≤ most then writeOut ds point else withExponent ds point
  String.ofList (sign ++ body)

end ClassModel.Number
