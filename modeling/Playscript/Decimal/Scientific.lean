import Playscript.Decimal.Shortest
/-! The double nearest to a decimal fraction `m * 10^e`. -/
namespace Playscript.Decimal

/-- The nearest double. Exponents far outside the range of doubles are settled by the number of
digits alone, so that no huge power of ten is ever formed. -/
def toFloat (m : Nat) (e : Int) : Float :=
  let top := e + Int.ofNat (digitCount m)
  if m = 0 || top < -330 then 0
  else if 310 < top then 1 / 0
  else Float.ofScientific m (e < 0) e.natAbs

/-- The double that a numeral denotes: digits, digits after the point, and an exponent. -/
def ofParts (negative : Bool) (whole fraction : List Char) (exponent : Int) : Float :=
  let digits := whole ++ fraction
  let m := digits.foldl (fun n c => 10 * n + (c.toNat - '0'.toNat)) 0
  let x := toFloat m (exponent - Int.ofNat fraction.length)
  if negative then -x else x

end Playscript.Decimal
