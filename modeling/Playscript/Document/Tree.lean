import Playscript.Document.Value
/-! Trees of tables under construction. A text of tables names its tables in any order, so a tree
keeps for each table how it came about: by a header, or only as the way to another one. A table
may be opened by a header once, and dotted keys extend only tables that dotted keys have made. -/
namespace Playscript.Document

inductive Tree
  | leaf (v : Value)
  /-- A table: whether no header has opened it, whether dotted keys have made it, its entries. -/
  | table (implicit dotted : Bool) (entries : List (String × Tree))
  /-- The tables of an array that headers add to. -/
  | array (tables : List Tree)
deriving Inhabited

namespace Tree

def root : Tree := .table false false []

/-- The entries with a tree under a key, in the key's old place or else at the end. -/
def put (key : String) (t : Tree) : List (String × Tree) → List (String × Tree)
  | [] => [(key, t)]
  | entry :: rest => if entry.1 == key then (key, t) :: rest else entry :: put key t rest

/-- Changes the table at the end of a path, making the tables that are missing on the way. An array
is entered at its last table. -/
def atPath (dotted : Bool) (change : Tree → Option Tree) : List String → Tree → Option Tree
  | [], t => change t
  | key :: path, .table implicit wasDotted entries => do
      let child ← match entries.lookup key with
        | none => atPath dotted change path (.table true dotted [])
        | some (.leaf _) => none
        | some (.array tables) => do
            let last ← tables.getLast?
            let changed ← atPath dotted change path last
            some (.array (tables.dropLast ++ [changed]))
        | some (.table childImplicit childDotted children) =>
            if dotted && !childImplicit then none
            else atPath dotted change path (.table childImplicit childDotted children)
      some (.table implicit wasDotted (put key child entries))
  | _ :: _, _ => none

/-- Adds a key with its value to a table, which dotted keys must have made exactly when the key
itself is dotted. -/
def addHere (isDotted : Bool) (key : String) (v : Tree) : Tree → Option Tree
  | .table implicit dotted entries =>
      if dotted == isDotted && (entries.lookup key).isNone then
        some (.table implicit dotted (entries ++ [(key, v)]))
      else
        none
  | _ => none

/-- Adds a value under a path of keys that begins in this table. -/
def add (path : List String) (key : String) (v : Tree) (t : Tree) : Option Tree :=
  atPath true (addHere (!path.isEmpty) key v) path t

def openHere (key : String) : Tree → Option Tree
  | .table implicit dotted entries =>
      match entries.lookup key with
      | none => some (.table implicit dotted (put key (.table false false []) entries))
      | some (.table true false children) =>
          some (.table implicit dotted (put key (.table false false children) entries))
      | some _ => none
  | _ => none

def pushHere (key : String) : Tree → Option Tree
  | .table implicit dotted entries =>
      match entries.lookup key with
      | none => some (.table implicit dotted (put key (.array [.table false false []]) entries))
      | some (.array tables) =>
          some (.table implicit dotted
            (put key (.array (tables ++ [.table false false []])) entries))
      | some _ => none
  | _ => none

mutual

def toValue : Tree → Value
  | .leaf v => v
  | .table _ _ entries => .record (entryValues entries)
  | .array tables => .list (tableValues tables)

def entryValues : List (String × Tree) → List (String × Value)
  | [] => []
  | (key, t) :: rest => (key, t.toValue) :: entryValues rest

def tableValues : List Tree → List Value
  | [] => []
  | t :: rest => t.toValue :: tableValues rest

end

end Tree

end Playscript.Document
