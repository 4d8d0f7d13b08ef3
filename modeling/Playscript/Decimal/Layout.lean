import Playscript.Decimal.Shortest
/-! The text of a double: the shortest digits set out by a layout. Two layouts are in use: the plain
one of every line shown to the player, and the one of JSON documents. -/
namespace Playscript.Decimal

/-- How the digits of a double are set out. A number whose decimal point stands `p` places after
its first digit is written in full when `p` lies in the window, else with an exponent. -/
structure Layout where
  /-- The window of the point, inclusive; without one every number is written in full. -/
  window : Option (Int × Int)
  /-- Whole numbers written in full end in `.0`. -/
  pointZero : Bool
  tie : Tie
deriving Repr

/-- Plain text: all digits, no exponent, no fraction on whole numbers. -/
def Layout.plain : Layout := ⟨none, false, .up⟩

/-- JSON text: a fraction on every number written in full, and an exponent from `1e16` on and below
`1e-5`. -/
def Layout.json : Layout := ⟨some (-4, 16), true, .toEven⟩

/-- The digits with the point at place `p`. -/
def Layout.inFull (l : Layout) (ds : List Char) (p : Int) : List Char :=
  let n := ds.length
  if p ≤ 0 then
    ['0', '.'] ++ List.replicate (-p).toNat '0' ++ ds
  else if p < n then
    ds.take p.toNat ++ '.' :: ds.drop p.toNat
  else
    ds ++ List.replicate (p - n).toNat '0' ++ (if l.pointZero then ['.', '0'] else [])

/-- One digit before the point and a signed exponent. -/
def withExponent (ds : List Char) (p : Int) : List Char :=
  let exponent := p - 1
  let sign := if exponent < 0 then '-' else '+'
  ds.take 1 ++ (if ds.length ≤ 1 then [] else '.' :: ds.drop 1) ++
    'e' :: sign :: Nat.toDigits 10 exponent.natAbs

def Layout.digits (l : Layout) (x : Digits) : List Char :=
  let ds := Nat.toDigits 10 x.d
  let p := ds.length + x.k
  match l.window with
  | none => l.inFull ds p
  | some (low, high) => if low ≤ p && p ≤ high then l.inFull ds p else withExponent ds p

def Layout.text (l : Layout) (x : Float) : String :=
  let bits := x.toBits
  if x.isNaN then "NaN"
  else
    let sign := if bits.toNat < Nat.pow 2 63 then [] else ['-']
    let body :=
      if x.isInf then ['i', 'n', 'f']
      else if bits.toNat % Nat.pow 2 63 = 0 then l.inFull ['0'] 1
      else l.digits ((Binary.ofBits bits).shortest l.tie)
    String.ofList (sign ++ body)

def plain (x : Float) : String :=
  Layout.plain.text x

end Playscript.Decimal
