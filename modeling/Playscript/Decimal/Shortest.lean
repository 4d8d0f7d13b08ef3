/-! The shortest decimal of a binary fraction. A finite double is `m * 2^q`; the reals that round
to it form an interval around it, with its ends when `m` is even. Of the decimals in that interval
the ones with the fewest digits are the candidates, and of those the nearest is chosen. Everything
is decided in natural numbers. -/
namespace Playscript.Decimal

/-- A positive double as a binary fraction `m * 2^q`. At a power of two the gap below is half the
gap above, except at the bottom of the range. -/
structure Binary where
  m : Nat
  q : Int
  narrowBelow : Bool
deriving DecidableEq, Repr

structure Digits where
  d : Nat
  k : Int
deriving DecidableEq, Repr

/-- Which of two equally near candidates is taken. -/
inductive Tie
  | up
  | toEven
deriving DecidableEq, Repr

/-- The finite nonzero double with these bits, its sign left out. -/
def Binary.ofBits (bits : UInt64) : Binary :=
  let n := bits.toNat
  let fraction := n % Nat.pow 2 52
  let exponent := n / Nat.pow 2 52 % Nat.pow 2 11
  if exponent = 0 then
    ⟨fraction, -1074, false⟩
  else
    ⟨Nat.pow 2 52 + fraction, Int.ofNat exponent - 1075, fraction == 0 && exponent != 1⟩

def digitCount (n : Nat) : Nat :=
  if n < 10 then 1 else digitCount (n / 10) + 1
termination_by n

/-- The power of ten just above `num / den`: the exponent `e` with
`10^(e-1) ≤ num / den < 10^e`. -/
def magnitude (num den : Nat) : Int :=
  if den ≤ num then digitCount (num / den)
  else 1 - digitCount ((den + num - 1) / num - 1)

/-- Four times the value of a binary fraction and the ends of its interval, over one denominator. -/
structure Interval where
  low : Nat
  mid : Nat
  high : Nat
  den : Nat
  closed : Bool

def Binary.interval (b : Binary) : Interval :=
  let scale := Nat.pow 2 (b.q - 2).toNat
  { low := (4 * b.m - (if b.narrowBelow then 1 else 2)) * scale
    mid := 4 * b.m * scale
    high := (4 * b.m + 2) * scale
    den := Nat.pow 2 (2 - b.q).toNat
    closed := b.m % 2 == 0 }

/-- Whether the decimal `d * 10^k` rounds to the value. -/
def Interval.holds (i : Interval) (x : Digits) : Bool :=
  let left := x.d * Nat.pow 10 x.k.toNat * i.den
  let scale := Nat.pow 10 (-x.k).toNat
  if i.closed then i.low * scale ≤ left && left ≤ i.high * scale
  else i.low * scale < left && left < i.high * scale

/-- The better of the two neighbours of the value on the grid of multiples of `10^k`, if either
rounds to the value. -/
def Interval.onGrid? (i : Interval) (tie : Tie) (k : Int) : Option Digits :=
  let unit := Nat.pow 10 k.toNat * i.den
  let mid := i.mid * Nat.pow 10 (-k).toNat
  let below : Digits := ⟨mid / unit, k⟩
  let above : Digits := ⟨mid / unit + 1, k⟩
  match i.holds below, i.holds above with
  | false, false => none
  | true, false => some below
  | false, true => some above
  | true, true =>
      let twice := 2 * (mid % unit)
      if twice < unit then some below
      else if unit < twice then some above
      else match tie with
        | .up => some above
        | .toEven => if below.d % 2 = 0 then some below else some above

def Digits.strip (x : Digits) : Digits :=
  if _h : x.d ≠ 0 ∧ x.d % 10 = 0 then Digits.strip ⟨x.d / 10, x.k + 1⟩ else x
termination_by x.d
decreasing_by omega

/-- The shortest decimal that rounds to the value. Seventeen digits always suffice. -/
def Binary.shortest (b : Binary) (tie : Tie) : Digits :=
  let i := b.interval
  let e := magnitude i.mid i.den
  let found := (List.range 17).findSome? fun n => i.onGrid? tie (e - Int.ofNat (n + 1))
  (found.getD ⟨i.mid / i.den, 0⟩).strip

end Playscript.Decimal
