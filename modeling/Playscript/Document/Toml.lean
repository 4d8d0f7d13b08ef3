import Playscript.Decimal.Numeral
import Playscript.Decimal.Scientific
import Playscript.Document.Tree
/-! Documents written in TOML 1.0. A reader of a part answers the part and the text after it, or
nothing; a document that is not well formed has no value. -/
namespace Playscript.Document.Toml

/-! ## Gaps and comments -/

def isWs (c : Char) : Bool := c == ' ' || c == '\t'

def ws (text : List Char) : List Char := text.dropWhile isWs

/-- A character of a comment, a literal text, or a quoted text: no control character but the tab. -/
def isPlain (c : Char) : Bool :=
  c == '\t' || (0x20 ≤ c.toNat && c.toNat != 0x7F)

def newline? : List Char → Option (List Char)
  | '\n' :: rest => some rest
  | '\r' :: '\n' :: rest => some rest
  | _ => none

def comment (text : List Char) : List Char :=
  match text with
  | '#' :: rest => rest.dropWhile isPlain
  | _ => text

/-- The text of the next line, when nothing but a comment is left on this one. -/
def lineEnd? (text : List Char) : Option (List Char) :=
  match comment (ws text) with
  | [] => some []
  | rest => newline? rest

def gap (fuel : Nat) (text : List Char) : List Char :=
  match fuel with
  | 0 => text
  | fuel + 1 =>
      let rest := comment (ws text)
      match newline? rest with
      | some rest => gap fuel rest
      | none => if rest.length < text.length then gap fuel rest else text

def gaps (text : List Char) : List Char := gap (text.length + 1) text

/-! ## Texts -/

def hexValue? (c : Char) : Option Nat :=
  if c.isDigit then some (c.toNat - '0'.toNat)
  else if 'a' ≤ c ∧ c ≤ 'f' then some (c.toNat - 'a'.toNat + 10)
  else if 'A' ≤ c ∧ c ≤ 'F' then some (c.toNat - 'A'.toNat + 10)
  else none

def codePoint? (width : Nat) (text : List Char) : Option (Char × List Char) := do
  let digits ← (text.take width).mapM hexValue?
  if digits.length = width then
    let n := digits.foldl (fun n d => 16 * n + d) 0
    if n.isValidChar then some (Char.ofNat n, text.drop width) else none
  else none

/-- The character that an escape stands for, after its backslash. -/
def escape? : List Char → Option (Char × List Char)
  | 'b' :: rest => some ('\x08', rest)
  | 't' :: rest => some ('\t', rest)
  | 'n' :: rest => some ('\n', rest)
  | 'f' :: rest => some ('\x0c', rest)
  | 'r' :: rest => some ('\r', rest)
  | '"' :: rest => some ('"', rest)
  | '\\' :: rest => some ('\\', rest)
  | 'u' :: rest => codePoint? 4 rest
  | 'U' :: rest => codePoint? 8 rest
  | _ => none

/-- The rest of a quoted text on one line, with the characters before it in reverse. -/
def basic (fuel : Nat) (done : List Char) (text : List Char) : Option (List Char × List Char) :=
  match fuel with
  | 0 => none
  | fuel + 1 =>
      match text with
      | '"' :: rest => some (done.reverse, rest)
      | '\\' :: rest =>
          match escape? rest with
          | some (c, rest) => basic fuel (c :: done) rest
          | none => none
      | c :: rest => if isPlain c then basic fuel (c :: done) rest else none
      | [] => none

def blankLines : List Char → List Char
  | ' ' :: rest => blankLines rest
  | '\t' :: rest => blankLines rest
  | '\n' :: rest => blankLines rest
  | '\r' :: '\n' :: rest => blankLines rest
  | text => text

/-- The text after a line that ends in a backslash: what follows the backslash is blank up to the
next line ending, and the blanks and line endings after that one are passed over too. -/
def lineBreak? (text : List Char) : Option (List Char) :=
  (newline? (ws text)).map blankLines

/-- The rest of a text between three marks. Up to two marks may stand right before the closing
three; an escape is read only between quotes. -/
def long (mark : Char) (escapes : Bool) (fuel : Nat) (done : List Char) (text : List Char) :
    Option (List Char × List Char) :=
  match fuel with
  | 0 => none
  | fuel + 1 =>
      match text with
      | [] => none
      | c :: rest =>
          if c = mark then
            let marks := text.takeWhile (· == mark)
            let n := marks.length
            if n < 3 then long mark escapes fuel (marks ++ done) (text.drop n)
            else if n ≤ 5 then some ((marks.drop 3 ++ done).reverse, text.drop n)
            else none
          else if escapes && c = '\\' then
            match escape? rest with
            | some (c, rest) => long mark escapes fuel (c :: done) rest
            | none =>
                match lineBreak? rest with
                | some rest => long mark escapes fuel done rest
                | none => none
          else
            match newline? text with
            | some rest => long mark escapes fuel ('\n' :: done) rest
            | none => if isPlain c then long mark escapes fuel (c :: done) rest else none

/-- A text between three marks, without a line ending right after the opening ones. -/
def longText (mark : Char) (escapes : Bool) (text : List Char) : Option (List Char × List Char) :=
  long mark escapes (text.length + 1) [] ((newline? text).getD text)

def literal (text : List Char) : Option (List Char × List Char) :=
  let inside := text.takeWhile fun c => isPlain c && c != '\''
  match text.drop inside.length with
  | '\'' :: rest => some (inside, rest)
  | _ => none

/-- A text on one line, in either kind of marks. -/
def shortText? : List Char → Option (List Char × List Char)
  | '"' :: rest => basic (rest.length + 1) [] rest
  | '\'' :: rest => literal rest
  | _ => none

def text? : List Char → Option (List Char × List Char)
  | '"' :: '"' :: '"' :: rest => longText '"' true rest
  | '\'' :: '\'' :: '\'' :: rest => longText '\'' false rest
  | text => shortText? text

/-! ## Keys -/

def isKeyChar (c : Char) : Bool := c.isAlphanum || c == '_' || c == '-'

def simpleKey? (text : List Char) : Option (String × List Char) :=
  match shortText? text with
  | some (key, rest) => some (String.ofList key, rest)
  | none =>
      match text.span isKeyChar with
      | ([], _) => none
      | (key, rest) => some (String.ofList key, rest)

/-- The keys after a dot, with the keys before it in reverse. -/
def moreKeys (fuel : Nat) (done : List String) (text : List Char) :
    Option (List String × List Char) :=
  match fuel with
  | 0 => none
  | fuel + 1 =>
      match simpleKey? (ws text) with
      | none => none
      | some (key, rest) =>
          match ws rest with
          | '.' :: rest => moreKeys fuel (key :: done) rest
          | rest => some ((key :: done).reverse, rest)

/-- How deep values may be nested, and how many keys a dotted key may have. -/
def maxDepth : Nat := 79

/-- A dotted key, with the blanks around it. -/
def key? (text : List Char) : Option (List String × List Char) := do
  let (keys, rest) ← moreKeys (text.length + 1) [] text
  if keys.length ≤ maxDepth then some (keys, rest) else none

/-! ## Numbers, dates and times -/

/-- Digits of a class, single underscores between them left out. -/
def digitsFrom (p : Char → Bool) (done : List Char) : List Char → List Char × List Char
  | '_' :: c :: rest =>
      if p c then digitsFrom p (c :: done) rest else (done.reverse, '_' :: c :: rest)
  | c :: rest => if p c then digitsFrom p (c :: done) rest else (done.reverse, c :: rest)
  | [] => (done.reverse, [])

/-- At least one digit of a class. -/
def digits? (p : Char → Bool) : List Char → Option (List Char × List Char)
  | c :: rest => if p c then some (digitsFrom p [c] rest) else none
  | [] => none

def sign? : List Char → Option Bool × List Char
  | '+' :: rest => (some false, rest)
  | '-' :: rest => (some true, rest)
  | text => (none, text)

/-- A decimal whole number: whether it is negative, and its digits, which begin with a zero only if
that is all. -/
def decimal? (text : List Char) : Option ((Bool × List Char) × List Char) :=
  let (negative, text) := sign? text
  match text with
  | '0' :: rest => some ((negative.getD false, ['0']), rest)
  | text => (digits? Char.isDigit text).map fun (ds, rest) => ((negative.getD false, ds), rest)

def inRange (n : Int) : Option Value :=
  if Int64.minValue.toInt ≤ n ∧ n ≤ Int64.maxValue.toInt then some (.int n) else none

def based? (base : Nat) (text : List Char) : Option (Value × List Char) := do
  let isDigit (c : Char) : Bool := (hexValue? c).any (· < base)
  let (ds, rest) ← digits? isDigit text
  let n := ds.foldl (fun n c => base * n + (hexValue? c).getD 0) 0
  return (← inRange n, rest)

def whole? (text : List Char) : Option (Value × List Char) :=
  match text with
  | '0' :: 'x' :: rest => based? 16 rest
  | '0' :: 'o' :: rest => based? 8 rest
  | '0' :: 'b' :: rest => based? 2 rest
  | _ => do
      let ((negative, ds), rest) ← decimal? text
      let n : Int := Decimal.value ds
      return (← inRange (if negative then -n else n), rest)

def exponent? : List Char → Option (Int × List Char)
  | c :: rest => do
      if c ≠ 'e' ∧ c ≠ 'E' then none
      let (negative, rest) := sign? rest
      let (ds, rest) ← digits? Char.isDigit rest
      let n : Int := Decimal.value ds
      return (if negative.getD false then -n else n, rest)
  | [] => none

def fraction? : List Char → Option (List Char × List Char)
  | '.' :: rest => digits? Char.isDigit rest
  | _ => none

/-- A number with a fraction, an exponent or both. One that is too large has no value. -/
def fractional? (text : List Char) : Option (Value × List Char) := do
  let ((negative, ds), rest) ← decimal? text
  let (fraction, exponent, rest) ← match fraction? rest with
    | some (fraction, rest) =>
        match exponent? rest with
        | some (exponent, rest) => some (fraction, exponent, rest)
        | none => some (fraction, 0, rest)
    | none => (exponent? rest).map fun (exponent, rest) => ([], exponent, rest)
  let x := Decimal.ofParts negative ds fraction exponent
  if x == 1 / 0 then none else return (.float x, rest)

def special? (text : List Char) : Option (Value × List Char) :=
  let (negative, text) := sign? text
  match text with
  | 'i' :: 'n' :: 'f' :: rest =>
      some (.float (if negative.getD false then -1 / 0 else 1 / 0), rest)
  | 'n' :: 'a' :: 'n' :: rest => some (.float (0 / 0), rest)
  | _ => none

/-- A number of exactly so many digits, within bounds. -/
def field? (width low high : Nat) (text : List Char) : Option (Nat × List Char) :=
  let ds := text.take width
  if ds.length = width ∧ ds.all Char.isDigit ∧ low ≤ Decimal.value ds ∧
      Decimal.value ds ≤ high then
    some (Decimal.value ds, text.drop width)
  else
    none

def mark? (c : Char) : List Char → Option (List Char)
  | d :: rest => if c = d then some rest else none
  | [] => none

def daysIn (year month : Nat) : Nat :=
  let leap := (year % 4 = 0 ∧ year % 100 ≠ 0) ∨ year % 400 = 0
  if month = 2 then (if leap then 29 else 28)
  else if month = 4 ∨ month = 6 ∨ month = 9 ∨ month = 11 then 30
  else 31

def date? (text : List Char) : Option (List Char) := do
  let (year, rest) ← field? 4 0 9999 text
  let (month, rest) ← field? 2 1 12 (← mark? '-' rest)
  let (_, rest) ← field? 2 1 (daysIn year month) (← mark? '-' rest)
  return rest

def time? (text : List Char) : Option (List Char) := do
  let (_, rest) ← field? 2 0 23 text
  let (_, rest) ← field? 2 0 59 (← mark? ':' rest)
  let (_, rest) ← field? 2 0 60 (← mark? ':' rest)
  match rest with
  | '.' :: more =>
      match more.span Char.isDigit with
      | ([], _) => none
      | (_, rest) => return rest
  | _ => return rest

/-- The text after the offset of a time, if one is written. -/
def offset (text : List Char) : List Char :=
  match text with
  | 'Z' :: rest | 'z' :: rest => rest
  | '+' :: rest | '-' :: rest =>
      let read : Option (List Char) := do
        let (_, rest) ← field? 2 0 23 rest
        let (_, rest) ← field? 2 0 59 (← mark? ':' rest)
        return rest
      read.getD text
  | _ => text

def moment? (text : List Char) : Option (List Char) :=
  match date? text with
  | some rest =>
      match rest with
      | 'T' :: more | 't' :: more | ' ' :: more =>
          match time? more with
          | some rest => some (offset rest)
          | none => some rest
      | _ => some rest
  | none => time? text

/-- The field under which a date or time stands where a record is looked for. -/
def momentKey : String := "$__toml_private_datetime"

/-- A date or a time, which no value of the game is made of. -/
def momentValue? (text : List Char) : Option (Value × List Char) :=
  (moment? text).map fun rest =>
    (.record [(momentKey, .text (String.ofList (text.take (text.length - rest.length))))], rest)

def numeric? (text : List Char) : Option (Value × List Char) :=
  momentValue? text <|> fractional? text <|> special? text <|> whole? text

/-! ## Values -/

mutual

/-- A value, given how many more may be nested in it. -/
def value? (fuel depth : Nat) (text : List Char) : Option (Value × List Char) :=
  match fuel with
  | 0 => none
  | fuel + 1 =>
      match text with
      | '"' :: _ | '\'' :: _ =>
          (text? text).map fun (s, rest) => (.text (String.ofList s), rest)
      | '[' :: rest =>
          match depth with
          | 0 => none
          | depth + 1 => (items? fuel depth [] rest).map fun (vs, rest) => (.list vs, rest)
      | '\x7b' :: rest =>
          match depth with
          | 0 => none
          | depth + 1 =>
              match ws rest with
              | '\x7d' :: rest => some (.record [], rest)
              | rest => fields? fuel depth .root rest
      | 't' :: 'r' :: 'u' :: 'e' :: rest => some (.bool true, rest)
      | 'f' :: 'a' :: 'l' :: 's' :: 'e' :: rest => some (.bool false, rest)
      | 'i' :: _ | 'n' :: _ => special? text
      | c :: _ => if c = '+' ∨ c = '-' ∨ c.isDigit then numeric? text else none
      | [] => none

def items? (fuel depth : Nat) (done : List Value) (text : List Char) :
    Option (List Value × List Char) :=
  match fuel with
  | 0 => none
  | fuel + 1 =>
      match gaps text with
      | ']' :: rest => some (done.reverse, rest)
      | start =>
          match value? fuel depth start with
          | none => none
          | some (v, rest) =>
              match gaps rest with
              | ',' :: rest => items? fuel depth (v :: done) rest
              | ']' :: rest => some ((v :: done).reverse, rest)
              | _ => none

def fields? (fuel depth : Nat) (done : Tree) (text : List Char) : Option (Value × List Char) :=
  match fuel with
  | 0 => none
  | fuel + 1 =>
      match pair? fuel depth done text with
      | none => none
      | some (done, rest) =>
          match ws rest with
          | ',' :: rest => fields? fuel depth done rest
          | '\x7d' :: rest => some (done.toValue, rest)
          | _ => none

def pair? (fuel depth : Nat) (table : Tree) (text : List Char) : Option (Tree × List Char) :=
  match fuel with
  | 0 => none
  | fuel + 1 =>
      match key? text with
      | some (keys, '=' :: rest) =>
          match value? fuel depth (ws rest) with
          | none => none
          | some (v, rest) =>
              (Tree.add keys.dropLast (keys.getLastD "") (.leaf v) table).map fun t => (t, rest)
      | _ => none

end

/-! ## Documents -/

/-- A document as far as it has been read: the tree and the path of the table being filled. -/
structure Progress where
  tree : Tree
  path : List String

/-- A header: the keys in it and the text after it. -/
def header? (close : List Char) (text : List Char) : Option (List String × List Char) := do
  let (keys, rest) ← key? text
  let rest ← close.isPrefixOf? rest
  return (keys, rest)

/-- The document after its next line, with the text after that line. -/
def line? (p : Progress) (text : List Char) : Option (Progress × List Char) :=
  match ws text with
  | '[' :: '[' :: rest => do
      let (keys, rest) ← header? [']', ']'] rest
      let tree ← p.tree.atPath false (Tree.pushHere (keys.getLastD "")) keys.dropLast
      return (⟨tree, keys⟩, ← lineEnd? rest)
  | '[' :: rest => do
      let (keys, rest) ← header? [']'] rest
      let tree ← p.tree.atPath false (Tree.openHere (keys.getLastD "")) keys.dropLast
      return (⟨tree, keys⟩, ← lineEnd? rest)
  | start =>
      match lineEnd? start with
      | some rest => some (p, rest)
      | none => do
          let (keys, rest) ← key? start
          let rest ← mark? '=' rest
          let (v, rest) ← value? (rest.length + 1) maxDepth (ws rest)
          let fill := Tree.add keys.dropLast (keys.getLastD "") (.leaf v)
          let tree ← p.tree.atPath false fill p.path
          return (⟨tree, p.path⟩, ← lineEnd? rest)

/-- The document after all its lines. -/
def lines? (fuel : Nat) (p : Progress) (text : List Char) : Option Progress :=
  match text with
  | [] => some p
  | _ =>
      match fuel with
      | 0 => none
      | fuel + 1 =>
          match line? p text with
          | some (p, rest) => lines? fuel p rest
          | none => none

/-- The document that a text holds. A byte order mark in front is passed over. -/
def parse? (text : String) : Option Value :=
  let cs := match text.toList with
    | '\ufeff' :: rest => rest
    | cs => cs
  (lines? (cs.length + 1) ⟨.root, []⟩ cs).map fun p => p.tree.toValue

end Playscript.Document.Toml
