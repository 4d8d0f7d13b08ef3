/-! The commands that a script can give, and sets of them. -/
namespace Playscript

inductive Action
  | moveLeft
  | moveRight
  | jump
  | shoot
  | moveBack
  | setSpeed
deriving DecidableEq, Repr, Inhabited

namespace Action

def all : List Action :=
  [.moveLeft, .moveRight, .jump, .shoot, .moveBack, .setSpeed]

theorem mem_all (a : Action) : a ∈ all := by
  cases a <;> decide

def name : Action → String
  | .moveLeft => "moveLeft"
  | .moveRight => "moveRight"
  | .jump => "jump"
  | .shoot => "shoot"
  | .moveBack => "moveBack"
  | .setSpeed => "setSpeed"

/-- The action with this name; case matters. -/
def ofName? (name : String) : Option Action :=
  all.find? fun a => a.name == name

/-- Only `setSpeed` is called with a value. -/
def takesValue : Action → Bool
  | .setSpeed => true
  | _ => false

theorem ofName?_name (a : Action) : ofName? a.name = some a := by
  cases a <;> rfl

theorem name_of_ofName? {s : String} {a : Action} (h : ofName? s = some a) : a.name = s := by
  have := List.find?_some h
  simpa using this

end Action

/-- A set of actions. Two sets with the same members are equal. -/
structure ActionSet where
  holds : Action → Bool

namespace ActionSet

instance : Membership Action ActionSet := ⟨fun s a => s.holds a = true⟩

instance (a : Action) (s : ActionSet) : Decidable (a ∈ s) :=
  inferInstanceAs (Decidable (s.holds a = true))

@[ext] theorem ext {s t : ActionSet} (h : ∀ a, a ∈ s ↔ a ∈ t) : s = t := by
  cases s; cases t
  congr 1
  funext a
  exact Bool.eq_iff_iff.mpr (h a)

def empty : ActionSet := ⟨fun _ => false⟩

def full : ActionSet := ⟨fun _ => true⟩

def insert (s : ActionSet) (a : Action) : ActionSet :=
  ⟨fun b => b == a || s.holds b⟩

def ofList (actions : List Action) : ActionSet :=
  ⟨fun b => actions.contains b⟩

def union (s t : ActionSet) : ActionSet :=
  ⟨fun b => s.holds b || t.holds b⟩

def toList (s : ActionSet) : List Action :=
  Action.all.filter s.holds

def isEmpty (s : ActionSet) : Bool :=
  s.toList.isEmpty

instance : Inhabited ActionSet := ⟨empty⟩

theorem mem_def {a : Action} {s : ActionSet} : a ∈ s ↔ s.holds a = true := Iff.rfl

@[simp] theorem not_mem_empty (a : Action) : a ∉ empty :=
  Bool.false_ne_true

@[simp] theorem mem_full (a : Action) : a ∈ full := rfl

@[simp] theorem mem_insert {a b : Action} {s : ActionSet} : b ∈ s.insert a ↔ b = a ∨ b ∈ s := by
  simp [insert, mem_def]

@[simp] theorem mem_ofList {a : Action} {actions : List Action} :
    a ∈ ofList actions ↔ a ∈ actions := by
  simp [ofList, mem_def]

@[simp] theorem mem_union {a : Action} {s t : ActionSet} : a ∈ s.union t ↔ a ∈ s ∨ a ∈ t := by
  simp [union, mem_def]

@[simp] theorem mem_toList {a : Action} {s : ActionSet} : a ∈ s.toList ↔ a ∈ s := by
  simp [toList, Action.mem_all, mem_def]

theorem ofList_toList (s : ActionSet) : ofList s.toList = s := by
  ext a; simp

end ActionSet

end Playscript
