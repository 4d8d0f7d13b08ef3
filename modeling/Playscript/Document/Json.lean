import Playscript.Document.Value
import Playscript.Decimal.Layout
import Playscript.Decimal.Numeral
import Playscript.Decimal.Scientific
/-! The JSON text of documents, written on one line or indented, and read back. -/
namespace Playscript.Document.Json

open Playscript.Decimal (Layout)

def hexDigit (n : Nat) : Char :=
  (Nat.toDigits 16 n).headD '0'

/-- A character as it stands inside quotes: quotes, backslashes and control characters escaped. -/
def escapeChar (c : Char) : List Char :=
  if c = '"' then ['\\', '"']
  else if c = '\\' then ['\\', '\\']
  else if c = '\n' then ['\\', 'n']
  else if c = '\r' then ['\\', 'r']
  else if c = '\t' then ['\\', 't']
  else if c = '\x08' then ['\\', 'b']
  else if c = '\x0c' then ['\\', 'f']
  else if c.toNat < 0x20 then
    ['\\', 'u', '0', '0', hexDigit (c.toNat / 16), hexDigit (c.toNat % 16)]
  else [c]

def quote (s : String) : String :=
  String.ofList ('"' :: s.toList.flatMap escapeChar ++ ['"'])

/-- A double, or `null` where it is not finite. -/
def number (x : Float) : String :=
  if x.isFinite then Layout.json.text x else "null"

def bool (b : Bool) : String :=
  if b then "true" else "false"

mutual

def compact : Value → String
  | .null => "null"
  | .bool b => bool b
  | .int n => Decimal.ofInt n
  | .float x => number x
  | .text s => quote s
  | .list items => "[" ++ ",".intercalate (compactItems items) ++ "]"
  | .record fields => "\x7b" ++ ",".intercalate (compactFields fields) ++ "\x7d"

def compactItems : List Value → List String
  | [] => []
  | v :: vs => compact v :: compactItems vs

def compactFields : List (String × Value) → List String
  | [] => []
  | (name, v) :: fs => (quote name ++ ":" ++ compact v) :: compactFields fs

end

/-- A bracketed group with one entry a line, or on one line when it is empty. -/
def group (indent : String) (left right : String) (entries : List String) : String :=
  match entries with
  | [] => left ++ right
  | _ =>
      let inner := indent ++ "  "
      left ++ "\n" ++ ",\n".intercalate (entries.map (inner ++ ·)) ++ "\n" ++ indent ++ right

mutual

/-- The document with two spaces of indentation a level. -/
def pretty (indent : String) : Value → String
  | .null => "null"
  | .bool b => bool b
  | .int n => Decimal.ofInt n
  | .float x => number x
  | .text s => quote s
  | .list items => group indent "[" "]" (prettyItems (indent ++ "  ") items)
  | .record fields => group indent "\x7b" "\x7d" (prettyFields (indent ++ "  ") fields)

def prettyItems (indent : String) : List Value → List String
  | [] => []
  | v :: vs => pretty indent v :: prettyItems indent vs

def prettyFields (indent : String) : List (String × Value) → List String
  | [] => []
  | (name, v) :: fs => (quote name ++ ": " ++ pretty indent v) :: prettyFields indent fs

end

/-! ## Reading -/

def skip (text : List Char) : List Char :=
  text.dropWhile fun c => c == ' ' || c == '\t' || c == '\n' || c == '\r'

def hexValue? (c : Char) : Option Nat :=
  if c.isDigit then some (c.toNat - '0'.toNat)
  else if 'a' ≤ c ∧ c ≤ 'f' then some (c.toNat - 'a'.toNat + 10)
  else if 'A' ≤ c ∧ c ≤ 'F' then some (c.toNat - 'A'.toNat + 10)
  else none

def unit? : List Char → Option (Nat × List Char)
  | a :: b :: c :: d :: rest => do
      let (a, b, c, d) := (← hexValue? a, ← hexValue? b, ← hexValue? c, ← hexValue? d)
      return (4096 * a + 256 * b + 16 * c + d, rest)
  | _ => none

/-- The character after a backslash and a `u`; two units stand for one character outside the basic
plane, and a unit of such a pair alone stands for none. -/
def escaped? (text : List Char) : Option (Char × List Char) := do
  let (u, rest) ← unit? text
  if 0xD800 ≤ u ∧ u < 0xDC00 then
    match rest with
    | '\\' :: 'u' :: more =>
        let (v, rest) ← unit? more
        if 0xDC00 ≤ v ∧ v < 0xE000 then
          return (Char.ofNat (0x10000 + 0x400 * (u - 0xD800) + (v - 0xDC00)), rest)
        else none
    | _ => none
  else if 0xDC00 ≤ u ∧ u < 0xE000 then none
  else return (Char.ofNat u, rest)

/-- The rest of a quoted text, with the characters before it in reverse. -/
def stringFrom (fuel : Nat) (done : List Char) (text : List Char) : Option (String × List Char) :=
  match fuel with
  | 0 => none
  | fuel + 1 =>
      match text with
      | '"' :: rest => some (String.ofList done.reverse, rest)
      | '\\' :: 'u' :: rest =>
          match escaped? rest with
          | some (c, rest) => stringFrom fuel (c :: done) rest
          | none => none
      | '\\' :: c :: rest =>
          match c with
          | '"' => stringFrom fuel ('"' :: done) rest
          | '\\' => stringFrom fuel ('\\' :: done) rest
          | '/' => stringFrom fuel ('/' :: done) rest
          | 'b' => stringFrom fuel ('\x08' :: done) rest
          | 'f' => stringFrom fuel ('\x0c' :: done) rest
          | 'n' => stringFrom fuel ('\n' :: done) rest
          | 'r' => stringFrom fuel ('\r' :: done) rest
          | 't' => stringFrom fuel ('\t' :: done) rest
          | _ => none
      | c :: rest => if c.toNat < 0x20 then none else stringFrom fuel (c :: done) rest
      | [] => none

def string? (text : List Char) : Option (String × List Char) :=
  stringFrom (text.length + 1) [] text

def fraction? (text : List Char) : Option (List Char × List Char) :=
  match text with
  | '.' :: rest =>
      match rest.span Char.isDigit with
      | ([], _) => none
      | (ds, rest) => some (ds, rest)
  | _ => some ([], text)

/-- An exponent, or `none` inside where there is none. -/
def exponent? (text : List Char) : Option (Option Int × List Char) :=
  let after (rest : List Char) (sign : Int) : Option (Option Int × List Char) :=
    match rest.span Char.isDigit with
    | ([], _) => none
    | (ds, rest) => some (some (sign * Decimal.value ds), rest)
  match text with
  | 'e' :: '-' :: rest | 'E' :: '-' :: rest => after rest (-1)
  | 'e' :: '+' :: rest | 'E' :: '+' :: rest => after rest 1
  | 'e' :: rest | 'E' :: rest => after rest 1
  | _ => some (none, text)

/-- A number. Without fraction and exponent it is whole, unless no word of 64 bits holds it or it is
a negative zero. -/
def number? (text : List Char) : Option (Value × List Char) := do
  let (negative, text) := match text with
    | '-' :: rest => (true, rest)
    | _ => (false, text)
  let (whole, text) := text.span Char.isDigit
  if whole = [] ∨ (whole.length > 1 ∧ whole.head? = some '0') then none
  let (fraction, rest) ← fraction? text
  let pointed := rest.length < text.length
  let (exponent, rest) ← exponent? rest
  let n : Int := Decimal.value whole
  if !pointed ∧ exponent = none ∧
      (if negative then 0 < n ∧ Int64.minValue.toInt ≤ -n else n < UInt64.size) then
    return (.int (if negative then -n else n), rest)
  let x := Decimal.ofParts negative whole fraction (exponent.getD 0)
  if x.isFinite then return (.float x, rest) else none

/-- A field added to the fields before it; of two fields of one name the later one stands. -/
def putField (fields : List (String × Value)) (name : String) (v : Value) :
    List (String × Value) :=
  if fields.any (·.1 == name) then
    fields.map fun field => if field.1 == name then (name, v) else field
  else
    fields ++ [(name, v)]

mutual

def value? (fuel : Nat) (text : List Char) : Option (Value × List Char) :=
  match fuel with
  | 0 => none
  | fuel + 1 =>
      match skip text with
      | 'n' :: 'u' :: 'l' :: 'l' :: rest => some (.null, rest)
      | 't' :: 'r' :: 'u' :: 'e' :: rest => some (.bool true, rest)
      | 'f' :: 'a' :: 'l' :: 's' :: 'e' :: rest => some (.bool false, rest)
      | '"' :: rest => (string? rest).map fun (s, rest) => (.text s, rest)
      | '[' :: rest =>
          match skip rest with
          | ']' :: rest => some (.list [], rest)
          | rest => (items? fuel [] rest).map fun (vs, rest) => (.list vs, rest)
      | '\x7b' :: rest =>
          match skip rest with
          | '\x7d' :: rest => some (.record [], rest)
          | rest => (fields? fuel [] rest).map fun (fs, rest) => (.record fs, rest)
      | rest => number? rest

def items? (fuel : Nat) (done : List Value) (text : List Char) :
    Option (List Value × List Char) :=
  match fuel with
  | 0 => none
  | fuel + 1 =>
      match value? fuel text with
      | none => none
      | some (v, rest) =>
          match skip rest with
          | ',' :: rest => items? fuel (v :: done) rest
          | ']' :: rest => some ((v :: done).reverse, rest)
          | _ => none

def fields? (fuel : Nat) (done : List (String × Value)) (text : List Char) :
    Option (List (String × Value) × List Char) :=
  match fuel with
  | 0 => none
  | fuel + 1 =>
      match skip text with
      | '"' :: rest =>
          match string? rest with
          | none => none
          | some (name, rest) =>
              match skip rest with
              | ':' :: rest =>
                  match value? fuel rest with
                  | none => none
                  | some (v, rest) =>
                      match skip rest with
                      | ',' :: rest => fields? fuel (putField done name v) rest
                      | '\x7d' :: rest => some (putField done name v, rest)
                      | _ => none
              | _ => none
      | _ => none

end

def parse? (text : String) : Option Value :=
  let cs := text.toList
  match value? (cs.length + 1) cs with
  | some (v, rest) => if skip rest = [] then some v else none
  | none => none

end Playscript.Document.Json
