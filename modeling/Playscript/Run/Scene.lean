import Playscript.Run.Event
import Playscript.Run.Issue
import Playscript.Run.Techniques
import Playscript.Run.Variables
import Playscript.World.Basic
/-! What a run acts on and what it produces. A scene is the state that statements read and change;
an output is what they leave for others. An effect turns a scene into a scene and an output, and
effects are done one after the other. -/
namespace Playscript

structure Scene (α : Type) where
  world : World α
  bindings : Variables
  techniques : Techniques

/-- Trace lines, issues and events, each in order. -/
structure Output (α : Type) where
  trace : List String
  issues : List Issue
  events : List (Event α)

namespace Output

variable {α : Type}

def empty : Output α := ⟨[], [], []⟩

def append (a b : Output α) : Output α :=
  ⟨a.trace ++ b.trace, a.issues ++ b.issues, a.events ++ b.events⟩

instance : Append (Output α) := ⟨append⟩

instance : Inhabited (Output α) := ⟨empty⟩

def line (text : String) : Output α := ⟨[text], [], []⟩

def event (e : Event α) : Output α := ⟨[], [], [e]⟩

/-- An issue with its message as a trace line. -/
def issue (i : Issue) : Output α := ⟨[i.message], [i], []⟩

@[simp] theorem trace_append (a b : Output α) : (a ++ b).trace = a.trace ++ b.trace := rfl

@[simp] theorem issues_append (a b : Output α) : (a ++ b).issues = a.issues ++ b.issues := rfl

@[simp] theorem events_append (a b : Output α) : (a ++ b).events = a.events ++ b.events := rfl

@[ext] theorem ext {a b : Output α} (ht : a.trace = b.trace) (hi : a.issues = b.issues)
    (he : a.events = b.events) : a = b := by
  cases a; cases b; simp_all

@[simp] theorem empty_append (a : Output α) : empty ++ a = a := rfl

@[simp] theorem append_empty (a : Output α) : a ++ empty = a := by
  ext1 <;> simp [empty]

theorem append_assoc (a b c : Output α) : a ++ b ++ c = a ++ (b ++ c) := by
  ext1 <;> simp

end Output

/-- A change of the scene together with what it leaves behind. -/
def Effect (α : Type) := Scene α → Scene α × Output α

namespace Effect

variable {α : Type}

/-- Nothing at all. -/
def skip : Effect α := fun scene => (scene, .empty)

/-- No change, only output. -/
def tell (output : Output α) : Effect α := fun scene => (scene, output)

def andThen (a b : Effect α) : Effect α := fun scene =>
  let first := a scene
  let second := b first.1
  (second.1, first.2 ++ second.2)

/-- The effects one after the other. -/
def all : List (Effect α) → Effect α
  | [] => skip
  | a :: rest => a.andThen (all rest)

theorem andThen_skip (a : Effect α) : a.andThen skip = a := by
  funext scene
  simp [andThen, skip]

theorem andThen_assoc (a b c : Effect α) : (a.andThen b).andThen c = a.andThen (b.andThen c) := by
  funext scene
  simp [andThen, Output.append_assoc]

theorem all_append (as bs : List (Effect α)) : all (as ++ bs) = (all as).andThen (all bs) := by
  induction as with
  | nil => rfl
  | cons a as ih => simp [all, ih, andThen_assoc]

end Effect

end Playscript
