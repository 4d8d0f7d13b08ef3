/-! Document values: the common content of the file formats that catalogs and settings are written
in, and what a reader may ask of a value. Reading answers `none` for a value of the wrong kind. -/
namespace Playscript.Document

inductive Value
  | null
  | bool (b : Bool)
  | int (n : Int)
  | float (x : Float)
  | text (s : String)
  | list (items : List Value)
  | record (fields : List (String × Value))
deriving Inhabited

namespace Value

/-- A double as a document holds it: a number that is not finite has no written form. -/
def ofFloat (x : Float) : Value :=
  if x.isFinite then .float x else .null

def ofOption {α : Type} (write : α → Value) : Option α → Value
  | none => .null
  | some a => write a

/-- A number; a whole number serves where a fraction is expected. -/
def float? : Value → Option Float
  | .float x => some x
  | .int n => some (Float.ofInt n)
  | _ => none

def bool? : Value → Option Bool
  | .bool b => some b
  | _ => none

def text? : Value → Option String
  | .text s => some s
  | _ => none

/-- A whole number written without a fraction. -/
def int? : Value → Option Int
  | .int n => some n
  | _ => none

def int64? (v : Value) : Option Int64 :=
  match v.int? with
  | some n => if Int64.minValue.toInt ≤ n ∧ n ≤ Int64.maxValue.toInt then some (Int64.ofInt n) else none
  | none => none

def uint32? (v : Value) : Option UInt32 :=
  match v.int? with
  | some n => if 0 ≤ n ∧ n < UInt32.size then some (UInt32.ofNat n.toNat) else none
  | none => none

def uint64? (v : Value) : Option UInt64 :=
  match v.int? with
  | some n => if 0 ≤ n ∧ n < UInt64.size then some (UInt64.ofNat n.toNat) else none
  | none => none

def list? {α : Type} (read : Value → Option α) : Value → Option (List α)
  | .list items => items.mapM read
  | _ => none

def option? {α : Type} (read : Value → Option α) : Value → Option (Option α)
  | .null => some none
  | v => (read v).map some

end Value

/-- The conventions of a document's format where formats differ. -/
structure Format where
  /-- A list that stands for a record may be longer than the record. -/
  surplus : Bool
  /-- What a word may carry when it is written as a record with one field. -/
  bare : Value → Bool

namespace Format

def json : Format :=
  ⟨false, fun | .null => true | _ => false⟩

def toml : Format :=
  ⟨true, fun | .record [] => true | .list [] => true | _ => false⟩

/-- The conventions inside a value whose tag has been set aside. -/
def tagged : Format :=
  ⟨false, fun | .null => true | .record [] => true | _ => false⟩

/-- The fields of a record by name. A list stands for the record whose fields it gives in order. -/
def fields (f : Format) (names : List String) : Value → Option (String → Option Value)
  | .record entries => some fun name => entries.lookup name
  | .list items =>
      if f.surplus ∨ items.length ≤ names.length then
        some fun name => (names.zip items).lookup name
      else
        none
  | _ => none

/-- A word, or a record whose only field names it. -/
def word? (f : Format) : Value → Option String
  | .text s => some s
  | .record [(name, payload)] => if f.bare payload then some name else none
  | _ => none

/-- A choice between forms told apart by the field `tag`, given the names of each form's own
fields: the tag with the fields of the form. In a list the tag comes first. -/
def form? (tag : String) (names : String → List String) :
    Value → Option (String × (String → Option Value))
  | .record entries => do
      let form ← (← entries.lookup tag).text?
      return (form, fun name => if name = tag then none else entries.lookup name)
  | .list (first :: items) => do
      let form ← first.text?
      let get ← tagged.fields (names form) (.list items)
      return (form, get)
  | _ => none

end Format

def required {α : Type} (get : String → Option Value) (name : String)
    (read : Value → Option α) : Option α :=
  (get name).bind read

def defaulted {α : Type} (get : String → Option Value) (name : String) (default : α)
    (read : Value → Option α) : Option α :=
  match get name with
  | none => some default
  | some v => read v

end Playscript.Document
