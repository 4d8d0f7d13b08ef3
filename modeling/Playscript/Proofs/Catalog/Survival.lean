import Playscript.Catalog.Document
import Playscript.Proofs.Document.Survival
import Playscript.Settings
/-! Catalogs and settings survive being written and read back. Fields that a document leaves out
come back with their standard values, lists that stand for records come back as records, and nothing
of it makes a difference a second time. -/
namespace Playscript

open Document

/-! ## Words -/

theorem survives_action (f : Format) :
    Survives (fun _ => True) (Action.ofValue? f) Action.toValue :=
  survives_word Action.ofName?_name f

theorem survives_actionSet (f : Format) :
    Survives (fun _ => True) (ActionSet.ofValue? f) ActionSet.toValue where
  json := fun s _ => (survives_action f).list.json s.toList fun _ _ => trivial
  back := by
    intro s _
    have hback := (survives_action f).list.back s.toList fun _ _ => trivial
    rw [ActionSet.toValue, ActionSet.ofValue?, hback, Option.map_some, ActionSet.ofList_toList]
  fit := fun _ _ _ _ => trivial

theorem survives_kind (f : Format) :
    Survives (fun _ => True) (Level.Kind.ofValue? f) Level.Kind.toValue :=
  survives_word Level.Kind.ofExactSlug?_slug f

theorem survives_proximity (f : Format) :
    Survives (fun _ => True) (Proximity.ofValue? f) fun p => .text p.word :=
  survives_word (fun p => by cases p <;> rfl) f

/-! ## Places -/

structure Point.IsFinite (p : Point Float) : Prop where
  x : p.x.isFinite = true
  y : p.y.isFinite = true

theorem survives_point (f : Format) : Survives Point.IsFinite (Point.ofValue? f) Point.toValue where
  json := by
    intro p hp
    refine .record ?_
    simp only [List.forall_mem_cons]
    exact ⟨survives_float.json _ hp.x, survives_float.json _ hp.y, List.forall_mem_nil _⟩
  back := by
    intro p hp
    refine bind_back rfl ?_
    refine bind_back (survives_float.required_back hp.x rfl) ?_
    refine bind_back (survives_float.required_back hp.y rfl) ?_
    rfl
  fit := by
    intro v hv
    refine bind_fit (givesJson_fields f _ hv) fun get hget => ?_
    refine bind_fit (survives_float.required hget) fun x hx => ?_
    refine bind_fit (survives_float.required hget) fun y hy => ?_
    exact pure_fit ⟨hx, hy⟩

structure Area.IsFinite (r : Area Float) : Prop where
  x : r.x.isFinite = true
  y : r.y.isFinite = true
  width : r.width.isFinite = true
  height : r.height.isFinite = true

theorem survives_area (f : Format) : Survives Area.IsFinite (Area.ofValue? f) Area.toValue where
  json := by
    intro r hr
    refine .record ?_
    simp only [List.forall_mem_cons]
    exact ⟨survives_float.json _ hr.x, survives_float.json _ hr.y, survives_float.json _ hr.width,
      survives_float.json _ hr.height, List.forall_mem_nil _⟩
  back := by
    intro r hr
    refine bind_back rfl ?_
    refine bind_back (survives_float.required_back hr.x rfl) ?_
    refine bind_back (survives_float.required_back hr.y rfl) ?_
    refine bind_back (survives_float.required_back hr.width rfl) ?_
    refine bind_back (survives_float.required_back hr.height rfl) ?_
    rfl
  fit := by
    intro v hv
    refine bind_fit (givesJson_fields f _ hv) fun get hget => ?_
    refine bind_fit (survives_float.required hget) fun x hx => ?_
    refine bind_fit (survives_float.required hget) fun y hy => ?_
    refine bind_fit (survives_float.required hget) fun width hwidth => ?_
    refine bind_fit (survives_float.required hget) fun height hheight => ?_
    exact pure_fit ⟨hx, hy, hwidth, hheight⟩

structure Playfield.IsFinite (p : Playfield Float) : Prop where
  width : p.width.isFinite = true
  height : p.height.isFinite = true
  characterWidth : p.characterWidth.isFinite = true
  characterHeight : p.characterHeight.isFinite = true
  stepScale : p.stepScale.isFinite = true
  collisionMargin : p.collisionMargin.isFinite = true

theorem isFinite_standard : Playfield.IsFinite .standard := by
  constructor <;> exact Double.isFinite_ofInt (by decide) (by decide)

theorem survives_playfield (f : Format) :
    Survives Playfield.IsFinite (Playfield.ofValue? f) Playfield.toValue where
  json := by
    intro p hp
    refine .record ?_
    simp only [List.forall_mem_cons]
    exact ⟨survives_float.json _ hp.width, survives_float.json _ hp.height,
      survives_float.json _ hp.characterWidth, survives_float.json _ hp.characterHeight,
      survives_float.json _ hp.stepScale, survives_float.json _ hp.collisionMargin,
      List.forall_mem_nil _⟩
  back := by
    intro p hp
    refine bind_back rfl ?_
    refine bind_back (survives_float.defaulted_back hp.width rfl) ?_
    refine bind_back (survives_float.defaulted_back hp.height rfl) ?_
    refine bind_back (survives_float.defaulted_back hp.characterWidth rfl) ?_
    refine bind_back (survives_float.defaulted_back hp.characterHeight rfl) ?_
    refine bind_back (survives_float.defaulted_back hp.stepScale rfl) ?_
    refine bind_back (survives_float.defaulted_back hp.collisionMargin rfl) ?_
    rfl
  fit := by
    intro v hv
    have hbase := isFinite_standard
    refine bind_fit (givesJson_fields f _ hv) fun get hget => ?_
    refine bind_fit (survives_float.defaulted hget hbase.width) fun width hwidth => ?_
    refine bind_fit (survives_float.defaulted hget hbase.height) fun height hheight => ?_
    refine bind_fit (survives_float.defaulted hget hbase.characterWidth) fun own hown => ?_
    refine bind_fit (survives_float.defaulted hget hbase.characterHeight) fun tall htall => ?_
    refine bind_fit (survives_float.defaulted hget hbase.stepScale) fun scale hscale => ?_
    refine bind_fit (survives_float.defaulted hget hbase.collisionMargin) fun margin hmargin => ?_
    exact pure_fit ⟨hwidth, hheight, hown, htall, hscale, hmargin⟩

/-! ## Levels -/

namespace Level

def Requirement.IsFinite : Requirement Float → Prop
  | .reachX max => max.isFinite = true
  | _ => True

theorem survives_requirement :
    Survives Requirement.IsFinite Requirement.ofValue? Requirement.toValue where
  json := by
    intro r hr
    cases r with
    | reachX max =>
        refine .record ?_
        simp only [List.forall_mem_cons]
        exact ⟨.text _, survives_float.json max hr, List.forall_mem_nil _⟩
    | invoked action | loopedAction action =>
        refine .record ?_
        simp only [List.forall_mem_cons]
        exact ⟨.text _, .text _, List.forall_mem_nil _⟩
    | inGoal | speedFromVariable | retreatHandled | allTargetsHit =>
        refine .record ?_
        simp only [List.forall_mem_cons]
        exact ⟨.text _, List.forall_mem_nil _⟩
  back := by
    intro r hr
    cases r with
    | reachX max =>
        have hmax := survives_float.back max hr
        simp [Requirement.ofValue?, Requirement.toValue, Format.form?, required, List.lookup,
          Value.text?, hmax]
    | invoked action | loopedAction action =>
        have haction := (survives_action .tagged).back action trivial
        simp [Requirement.ofValue?, Requirement.toValue, Format.form?, required, List.lookup,
          Value.text?, haction]
    | inGoal | speedFromVariable | retreatHandled | allTargetsHit =>
        simp [Requirement.ofValue?, Requirement.toValue, Format.form?, List.lookup, Value.text?]
  fit := by
    intro v hv
    refine bind_fit (givesJson_form _ _ hv) fun form hget => ?_
    dsimp only
    split
    · exact bind_fit (survives_float.required hget) fun max hmax => pure_fit hmax
    · exact pure_fit trivial
    · exact bind_fit ((survives_action .tagged).required hget) fun action _ => pure_fit trivial
    · exact pure_fit trivial
    · exact pure_fit trivial
    · exact bind_fit ((survives_action .tagged).required hget) fun action _ => pure_fit trivial
    · exact pure_fit trivial
    · exact fit_none _

structure Enemy.IsFinite (e : Enemy Float) : Prop where
  area : e.area.IsFinite
  nearX : e.nearX.isFinite = true

theorem survives_enemy (f : Format) : Survives Enemy.IsFinite (Enemy.ofValue? f) Enemy.toValue where
  json := by
    intro e he
    refine .record ?_
    simp only [List.forall_mem_cons]
    exact ⟨(survives_area f).json _ he.area, survives_float.json _ he.nearX, List.forall_mem_nil _⟩
  back := by
    intro e he
    refine bind_back rfl ?_
    refine bind_back ((survives_area f).required_back he.area rfl) ?_
    refine bind_back (survives_float.required_back he.nearX rfl) ?_
    rfl
  fit := by
    intro v hv
    refine bind_fit (givesJson_fields f _ hv) fun get hget => ?_
    refine bind_fit ((survives_area f).required hget) fun area harea => ?_
    refine bind_fit (survives_float.required hget) fun nearX hnearX => ?_
    exact pure_fit ⟨harea, hnearX⟩

structure IsFinite (l : Level Float) : Prop where
  start : l.start.IsFinite
  goal : ∀ area ∈ l.goal, area.IsFinite
  obstacles : ∀ area ∈ l.obstacles, area.IsFinite
  targets : ∀ area ∈ l.targets, area.IsFinite
  enemy : ∀ e ∈ l.enemy, e.IsFinite
  requirements : ∀ r ∈ l.requirements, r.IsFinite

theorem survives_goal (f : Format) :
    Survives (fun o => ∀ area ∈ o, area.IsFinite) (Value.option? (Area.ofValue? f))
      (Value.ofOption Area.toValue) :=
  (survives_area f).option nofun

theorem survives_enemy? (f : Format) :
    Survives (fun o => ∀ e ∈ o, e.IsFinite) (Value.option? (Enemy.ofValue? f))
      (Value.ofOption Enemy.toValue) :=
  (survives_enemy f).option nofun

theorem survives_retreat (f : Format) :
    Survives (fun o => ∀ a ∈ o, True) (Value.option? (Action.ofValue? f))
      (Value.ofOption Action.toValue) :=
  (survives_action f).option nofun

theorem survives_level (f : Format) : Survives IsFinite (ofValue? f) toValue where
  json := by
    intro l hl
    refine .record ?_
    simp only [List.forall_mem_cons]
    exact ⟨(survives_kind f).json _ trivial, survives_uint32.json _ trivial, .text _, .text _,
      .text _, .text _, (survives_actionSet f).json _ trivial, (survives_point f).json _ hl.start,
      survives_int64.json _ trivial, (survives_goal f).json _ hl.goal,
      (survives_area f).list.json _ hl.obstacles, (survives_area f).list.json _ hl.targets,
      (survives_enemy? f).json _ hl.enemy, (survives_retreat f).json _ fun _ _ => trivial,
      survives_requirement.list.json _ hl.requirements, List.forall_mem_nil _⟩
  back := by
    intro l hl
    refine bind_back rfl ?_
    refine bind_back ((survives_kind f).required_back trivial rfl) ?_
    refine bind_back (survives_uint32.required_back trivial rfl) ?_
    refine bind_back (survives_text.required_back trivial rfl) ?_
    refine bind_back (survives_text.defaulted_back trivial rfl) ?_
    refine bind_back (survives_text.defaulted_back trivial rfl) ?_
    refine bind_back (survives_text.defaulted_back trivial rfl) ?_
    refine bind_back ((survives_actionSet f).required_back trivial rfl) ?_
    refine bind_back ((survives_point f).required_back hl.start rfl) ?_
    refine bind_back (survives_int64.defaulted_back trivial rfl) ?_
    refine bind_back ((survives_goal f).defaulted_back hl.goal rfl) ?_
    refine bind_back ((survives_area f).list.defaulted_back hl.obstacles rfl) ?_
    refine bind_back ((survives_area f).list.defaulted_back hl.targets rfl) ?_
    refine bind_back ((survives_enemy? f).defaulted_back hl.enemy rfl) ?_
    refine bind_back ((survives_retreat f).defaulted_back (fun _ _ => trivial) rfl) ?_
    refine bind_back (survives_requirement.list.required_back hl.requirements rfl) ?_
    rfl
  fit := by
    intro v hv
    have hnil : ∀ area ∈ ([] : List (Area Float)), area.IsFinite := List.forall_mem_nil _
    refine bind_fit (givesJson_fields f _ hv) fun get hget => ?_
    refine bind_fit ((survives_kind f).required hget) fun kind _ => ?_
    refine bind_fit (survives_uint32.required hget) fun number _ => ?_
    refine bind_fit (survives_text.required hget) fun name _ => ?_
    refine bind_fit (survives_text.defaulted hget trivial) fun instructions _ => ?_
    refine bind_fit (survives_text.defaulted hget trivial) fun starterCode _ => ?_
    refine bind_fit (survives_text.defaulted hget trivial) fun help _ => ?_
    refine bind_fit ((survives_actionSet f).required hget) fun allowed _ => ?_
    refine bind_fit ((survives_point f).required hget) fun start hstart => ?_
    refine bind_fit (survives_int64.defaulted hget trivial) fun speed _ => ?_
    refine bind_fit ((survives_goal f).defaulted hget (fit_none _)) fun goal hgoal => ?_
    refine bind_fit ((survives_area f).list.defaulted hget hnil) fun obstacles hobstacles => ?_
    refine bind_fit ((survives_area f).list.defaulted hget hnil) fun targets htargets => ?_
    refine bind_fit ((survives_enemy? f).defaulted hget (fit_none _)) fun enemy henemy => ?_
    refine bind_fit ((survives_retreat f).defaulted hget (fit_none _)) fun retreat _ => ?_
    refine bind_fit (survives_requirement.list.required hget) fun requirements hrequirements => ?_
    exact pure_fit ⟨hstart, hgoal, hobstacles, htargets, henemy, hrequirements⟩

end Level

/-! ## Catalogs -/

structure Catalog.IsFinite (c : Catalog Float) : Prop where
  playfield : c.playfield.IsFinite
  levels : ∀ l ∈ c.levels, l.IsFinite

theorem survives_catalog (f : Format) :
    Survives Catalog.IsFinite (Catalog.ofValue? f) Catalog.toValue where
  json := by
    intro c hc
    refine .record ?_
    simp only [List.forall_mem_cons]
    exact ⟨(survives_playfield f).json _ hc.playfield,
      (Level.survives_level f).list.json _ hc.levels, List.forall_mem_nil _⟩
  back := by
    intro c hc
    refine bind_back rfl ?_
    refine bind_back ((survives_playfield f).defaulted_back hc.playfield rfl) ?_
    refine bind_back ((Level.survives_level f).list.defaulted_back hc.levels rfl) ?_
    rfl
  fit := by
    intro v hv
    have hnil : ∀ l ∈ ([] : List (Level Float)), l.IsFinite := List.forall_mem_nil _
    refine bind_fit (givesJson_fields f _ hv) fun get hget => ?_
    refine bind_fit ((survives_playfield f).defaulted hget isFinite_standard) fun field hfield => ?_
    refine bind_fit ((Level.survives_level f).list.defaulted hget hnil) fun levels hlevels => ?_
    exact pure_fit ⟨hfield, hlevels⟩

/-! ## Settings -/

theorem survives_pattern : Survives (fun _ => True) Pattern.ofValue? Pattern.toValue where
  json := by
    intro p _
    cases p with
    | cycle phases =>
        refine .record ?_
        simp only [List.forall_mem_cons]
        exact ⟨.text _, (survives_proximity .tagged).list.json phases fun _ _ => trivial,
          List.forall_mem_nil _⟩
    | random =>
        refine .record ?_
        simp only [List.forall_mem_cons]
        exact ⟨.text _, List.forall_mem_nil _⟩
  back := by
    intro p _
    cases p with
    | cycle phases =>
        have hphases := (survives_proximity .tagged).list.back phases fun _ _ => trivial
        simp [Pattern.ofValue?, Pattern.toValue, Format.form?, required, List.lookup, Value.text?,
          hphases]
    | random => rfl
  fit := fun _ _ _ _ => trivial

theorem survives_enemySettings (f : Format) :
    Survives (fun _ => True) (EnemySettings.ofValue? f) EnemySettings.toValue where
  json := by
    intro e _
    refine .record ?_
    simp only [List.forall_mem_cons]
    exact ⟨survives_uint64.json _ trivial, survives_pattern.json _ trivial, List.forall_mem_nil _⟩
  back := by
    intro e _
    refine bind_back rfl ?_
    refine bind_back (survives_uint64.defaulted_back trivial rfl) ?_
    refine bind_back (survives_pattern.defaulted_back trivial rfl) ?_
    rfl
  fit := fun _ _ _ _ => trivial

theorem survives_settings (f : Format) :
    Survives (fun _ => True) (Settings.ofValue? f) Settings.toValue where
  json := by
    intro s _
    refine .record ?_
    simp only [List.forall_mem_cons]
    exact ⟨survives_uint64.json _ trivial, (survives_enemySettings f).json _ trivial,
      List.forall_mem_nil _⟩
  back := by
    intro s _
    refine bind_back rfl ?_
    refine bind_back (survives_uint64.defaulted_back trivial rfl) ?_
    refine bind_back ((survives_enemySettings f).defaulted_back trivial rfl) ?_
    rfl
  fit := fun _ _ _ _ => trivial

/-- Finite catalogs and all settings are written as JSON and read back as they were; so reading a
JSON value, writing what was read and reading that gives the same as the first reading. -/
theorem written_is_read_back :
    (∀ c : Catalog Float, c.IsFinite →
      c.toValue.IsJson ∧ Catalog.ofValue? .json c.toValue = some c) ∧
    (∀ s : Settings, s.toValue.IsJson ∧ Settings.ofValue? .json s.toValue = some s) ∧
    (∀ (v : Value) (c : Catalog Float), v.IsJson → Catalog.ofValue? .json v = some c →
      Catalog.ofValue? .json c.toValue = some c) ∧
    ∀ (v : Value) (s : Settings), v.IsJson → Settings.ofValue? .json v = some s →
      Settings.ofValue? .json s.toValue = some s := by
  have hcatalog := survives_catalog .json
  have hsettings := survives_settings .json
  exact ⟨fun c hc => ⟨hcatalog.json c hc, hcatalog.back c hc⟩,
    fun s => ⟨hsettings.json s trivial, hsettings.back s trivial⟩,
    fun _ _ hv hread => hcatalog.again hv hread, fun _ _ hv hread => hsettings.again hv hread⟩

/-- A catalog with a list for a record, whole numbers for fractions, an action named twice, a field
that nothing knows, and hardly a field that may be left out. -/
def sparseCatalog : Value :=
  .record
    [("playfield", .list [.int 640, .int 480]), ("author", .null),
      ("levels", .list [.record
        [("kind", .text "free-roam"), ("number", .int 1), ("name", .text "Alone"),
          ("allowed_actions", .list [.text "shoot", .text "jump", .text "shoot"]),
          ("start", .list [.int (-5), .int 200]),
          ("complete_when", .list [.list [.text "loopedAction", .text "jump"]])]])]

theorem written_is_read_back_sparseCatalog :
    sparseCatalog.IsJson ∧ ∃ c, Catalog.ofValue? .json sparseCatalog = some c ∧
      Catalog.ofValue? .json c.toValue = some c := by
  have hjson : sparseCatalog.IsJson := by
    have hwords (words : List String) : Value.IsJson (.list (words.map .text)) := by
      refine .list ?_
      intro v hv
      obtain ⟨word, -, rfl⟩ := List.mem_map.mp hv
      exact .text word
    have hnumbers (x y : Int) (hx : -5 ≤ x ∧ x ≤ 640) (hy : -5 ≤ y ∧ y ≤ 640) :
        Value.IsJson (.list [.int x, .int y]) := by
      refine .list ?_
      simp only [List.forall_mem_cons]
      exact ⟨.int (by omega) (by omega), .int (by omega) (by omega), List.forall_mem_nil _⟩
    refine .record ?_
    simp only [List.forall_mem_cons]
    refine ⟨hnumbers 640 480 (by decide) (by decide), .null, .list ?_, List.forall_mem_nil _⟩
    rw [List.forall_mem_singleton]
    refine .record ?_
    simp only [List.forall_mem_cons]
    refine ⟨.text _, .int (by decide) (by decide), .text _, hwords ["shoot", "jump", "shoot"],
      hnumbers (-5) 200 (by decide) (by decide), .list ?_, List.forall_mem_nil _⟩
    rw [List.forall_mem_singleton]
    exact hwords ["loopedAction", "jump"]
  have hread : (Catalog.ofValue? .json sparseCatalog).isSome = true := rfl
  obtain ⟨c, hc⟩ := Option.isSome_iff_exists.mp hread
  exact ⟨hjson, c, hc, written_is_read_back.2.2.1 sparseCatalog c hjson hc⟩

end Playscript
