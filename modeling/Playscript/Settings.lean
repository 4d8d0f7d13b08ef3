import Playscript.Document.Value
import Playscript.Enemy.Schedule
/-! The settings of the game: the pause between the rounds of a loop and the enemy's schedule. -/
namespace Playscript

structure EnemySettings where
  periodMillis : UInt64
  pattern : Pattern
deriving DecidableEq, Repr

structure Settings where
  pacingMillis : UInt64
  enemy : EnemySettings
deriving DecidableEq, Repr

open Document (Value Format required defaulted)

namespace EnemySettings

def standard : EnemySettings := ⟨2000, .standard⟩

def schedule (e : EnemySettings) : Schedule :=
  .start e.pattern (.ofMillis e.periodMillis.toNat)

end EnemySettings

namespace Settings

def standard : Settings := ⟨500, .standard⟩

def pacing (s : Settings) : Duration := .ofMillis s.pacingMillis.toNat

def withoutPacing (s : Settings) : Settings := { s with pacingMillis := 0 }

end Settings

/-! ## As documents -/

def Proximity.ofValue? (f : Format) (v : Value) : Option Proximity :=
  (f.word? v).bind Proximity.ofWord?

namespace Pattern

def ofValue? (v : Value) : Option Pattern := do
  let (form, get) ← Format.form? "mode" (fun | "cycle" => ["phases"] | _ => []) v
  match form with
  | "cycle" => do
      let phases ← required get "phases" (Value.list? (Proximity.ofValue? .tagged))
      return .cycle phases
  | "random" => some .random
  | _ => none

def toValue : Pattern → Value
  | .cycle phases =>
      .record [("mode", .text "cycle"), ("phases", .list (phases.map fun p => .text p.word))]
  | .random => .record [("mode", .text "random")]

end Pattern

namespace EnemySettings

def ofValue? (f : Format) (v : Value) : Option EnemySettings := do
  let get ← f.fields ["period_ms", "pattern"] v
  return {
    periodMillis := ← defaulted get "period_ms" standard.periodMillis Value.uint64?
    pattern := ← defaulted get "pattern" standard.pattern Pattern.ofValue? }

def toValue (e : EnemySettings) : Value :=
  .record [("period_ms", .int e.periodMillis.toNat), ("pattern", e.pattern.toValue)]

end EnemySettings

namespace Settings

def ofValue? (f : Format) (v : Value) : Option Settings := do
  let get ← f.fields ["pacing_ms", "enemy"] v
  return {
    pacingMillis := ← defaulted get "pacing_ms" standard.pacingMillis Value.uint64?
    enemy := ← defaulted get "enemy" standard.enemy (EnemySettings.ofValue? f) }

def toValue (s : Settings) : Value :=
  .record [("pacing_ms", .int s.pacingMillis.toNat), ("enemy", s.enemy.toValue)]

end Settings

end Playscript
