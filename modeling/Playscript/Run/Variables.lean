/-! The variables of a script, in the order in which they were first set. -/
namespace Playscript

/-- Names with their values, no name twice. -/
structure Variables where
  entries : List (String × Int64)
deriving DecidableEq, Repr

namespace Variables

def empty : Variables := ⟨[]⟩

instance : Inhabited Variables := ⟨empty⟩

def get? (v : Variables) (name : String) : Option Int64 :=
  v.entries.lookup name

def contains (v : Variables) (name : String) : Bool :=
  (v.get? name).isSome

/-- The entries with a value under a name, in the name's old place or else at the end. -/
def put (name : String) (value : Int64) : List (String × Int64) → List (String × Int64)
  | [] => [(name, value)]
  | entry :: rest =>
      if name == entry.1 then (name, value) :: rest else entry :: put name value rest

def set (v : Variables) (name : String) (value : Int64) : Variables :=
  ⟨put name value v.entries⟩

def size (v : Variables) : Nat := v.entries.length

def sorted (v : Variables) : List (String × Int64) :=
  v.entries.mergeSort fun a b => !(b.1 < a.1)

@[simp] theorem get?_empty (name : String) : empty.get? name = none := rfl

theorem get?_set (v : Variables) (name other : String) (value : Int64) :
    (v.set name value).get? other = if other = name then some value else v.get? other := by
  unfold set get?
  induction v.entries with
  | nil =>
      by_cases h : other = name
      · subst h; simp [put]
      · have hb : (other == name) = false := by simpa using h
        simp [put, List.lookup_cons, hb, h]
  | cons entry rest ih =>
      obtain ⟨key, old⟩ := entry
      simp only at ih
      by_cases hk : name = key
      · subst hk
        by_cases h : other = name
        · subst h; simp [put]
        · have hb : (other == name) = false := by simpa using h
          simp [put, List.lookup_cons, hb, h]
      · have hn : (name == key) = false := by simpa using hk
        simp only [put, hn, Bool.false_eq_true, if_false]
        by_cases h : other = key
        · subst h
          simp [Ne.symm hk]
        · have hb : (other == key) = false := by simpa using h
          simp only [List.lookup_cons, hb]
          exact ih

end Variables

end Playscript
