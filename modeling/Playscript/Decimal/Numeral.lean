/-! Decimal numerals of whole numbers: the value of a run of digits, and the readings that refuse
a value outside a machine word. -/
namespace Playscript.Decimal

/-- The value of a run of ASCII digits, most significant first. -/
def value (digits : List Char) : Nat :=
  digits.foldl (fun n c => 10 * n + (c.toNat - '0'.toNat)) 0

def maxInt64 : Nat := 9223372036854775807

/-- The signed word that a run of digits denotes, unless it is too large. -/
def toInt64? (digits : List Char) : Option Int64 :=
  if value digits ≤ maxInt64 then some (Int64.ofNat (value digits)) else none

/-- Digits with an optional plus sign in front, below 2^32. -/
def toUInt32? (text : List Char) : Option UInt32 :=
  let digits := match text with
    | '+' :: rest => rest
    | _ => text
  if digits ≠ [] ∧ digits.all Char.isDigit ∧ value digits < UInt32.size then
    some (UInt32.ofNat (value digits))
  else
    none

/-- A whole number in decimal, with a minus sign in front when it is negative. -/
def ofInt (n : Int) : String :=
  match n with
  | .ofNat m => m.repr
  | .negSucc m => "-" ++ (m + 1).repr

end Playscript.Decimal
