import Playscript.Proofs.Run.Stepping
import Playscript.Proofs.Script.Shape
/-! Which issues a run reports. A problem at the top level is reported once, in its place; every
other issue comes from a problem inside a block or from the state that the script meets. -/
namespace Playscript.Script

/-- The issue that is reported when a problem is reached. -/
def Statement.issue? : Statement → Option Issue
  | .unrecognized text line _ => some (.unrecognized text line)
  | .malformedLoop header _ reason => some (.malformedLoop header reason)
  | _ => none

end Script

/-- The issues that depend on the state of a level, and not on the script alone. -/
def Issue.isOfState : Issue → Bool
  | .undefinedVariable _ | .outOfRange _ | .unknownCondition _ => true
  | .unrecognized .. | .malformedLoop .. | .missingArgument _ => false

namespace Script

/-- An issue that a block can lead to: one of the state, or the issue of a problem in the block. -/
def Arises (block : List Statement) (i : Issue) : Prop :=
  i.isOfState = true ∨ ∃ p ∈ block, p.issue? = some i

/-- The issues that a statement at the top level can lead to. -/
inductive Statement.Leaves : Statement → List Issue → Prop
  | problem {s : Statement} {i : Issue} : s.issue? = some i → Leaves s [i]
  | sound {s : Statement} {left : List Issue} : s.isProblem = false →
      (∀ i ∈ left, Arises s.body i) → Leaves s left

/-- The issues that a script can lead to, in the order of its statements. -/
inductive Accounts : List Statement → List Issue → Prop
  | nil : Accounts [] []
  | cons {s : Statement} {rest : List Statement} {own later : List Issue} : s.Leaves own →
      Accounts rest later → Accounts (s :: rest) (own ++ later)

/-! ## Statements -/

variable {α : Type}

/-- An effect all of whose issues have a property. -/
def OnlyIssues (P : Issue → Prop) (a : Effect α) : Prop :=
  ∀ scene, ∀ i ∈ (a scene).2.issues, P i

theorem OnlyIssues.of_silent {P : Issue → Prop} {a : Effect α}
    (h : ∀ scene, (a scene).2.issues = []) : OnlyIssues P a := by
  intro scene i hi
  rw [h scene] at hi
  cases hi

theorem OnlyIssues.andThen {P : Issue → Prop} {a b : Effect α} (ha : OnlyIssues P a)
    (hb : OnlyIssues P b) : OnlyIssues P (a.andThen b) := by
  intro scene i hi
  rcases List.mem_append.mp hi with hfirst | hsecond
  · exact ha scene i hfirst
  · exact hb (a scene).1 i hsecond

theorem OnlyIssues.all {P : Issue → Prop} {effects : List (Effect α)}
    (h : ∀ a ∈ effects, OnlyIssues P a) : OnlyIssues P (.all effects) := by
  induction effects with
  | nil => exact .of_silent fun _ => rfl
  | cons a rest ih =>
      rw [List.forall_mem_cons] at h
      exact h.1.andThen (ih h.2)

theorem OnlyIssues.imp {P Q : Issue → Prop} {a : Effect α} (h : OnlyIssues P a)
    (hpq : ∀ i, P i → Q i) : OnlyIssues Q a :=
  fun scene i hi => hpq i (h scene i hi)

variable [Coordinate α]

/-- A call with a value exactly where its action takes one never lacks a value. -/
theorem onlyIssues_perform {action : Action} {argument : Option Argument}
    (harity : argument.isSome = action.takesValue) :
    OnlyIssues (fun i => i.isOfState = true) (perform action argument : Effect α) := by
  cases action with
  | moveLeft | moveRight | moveBack | jump | shoot => exact .of_silent fun _ => rfl
  | setSpeed =>
      obtain ⟨a, rfl⟩ := Option.isSome_iff_exists.mp harity
      intro scene i hi
      unfold perform setSpeed at hi
      cases a with
      | literal value =>
          simp only [Argument.value?] at hi
          split at hi
          · cases hi
          · exact List.mem_singleton.mp hi ▸ rfl
      | named name =>
          simp only [Argument.value?] at hi
          split at hi
          · rename_i issue hissue
            split at hissue
            · cases hissue
            · cases hissue
              exact List.mem_singleton.mp hi ▸ rfl
          · split at hi
            · cases hi
            · exact List.mem_singleton.mp hi ▸ rfl

variable {allowed : ActionSet} (retreat : Option Action)

theorem Statement.Inner.onlyIssues {s : Statement} (h : s.Inner allowed) :
    OnlyIssues (Arises [s]) (s.run retreat : Effect α) := by
  cases h with
  | flat hflat =>
      cases hflat with
      | assign _ _ => exact .of_silent fun _ => rfl
      | act _ harity _ => exact (onlyIssues_perform harity).imp fun i hi => .inl hi
  | unrecognized text line reason =>
      intro scene i hi
      exact .inr ⟨_, List.mem_singleton_self _, congrArg some (List.mem_singleton.mp hi).symm⟩

theorem onlyIssues_runAll {block : List Statement} (h : ∀ s ∈ block, s.Inner allowed) :
    OnlyIssues (Arises block) (runAll retreat block : Effect α) := by
  induction block with
  | nil => exact .of_silent fun _ => rfl
  | cons s rest ih =>
      rw [List.forall_mem_cons] at h
      refine OnlyIssues.andThen ((h.1.onlyIssues retreat).imp ?_) ((ih h.2).imp ?_)
      · rintro i (hstate | ⟨p, hp, hissue⟩)
        · exact .inl hstate
        · exact .inr ⟨p, List.mem_singleton.mp hp ▸ List.mem_cons_self, hissue⟩
      · rintro i (hstate | ⟨p, hp, hissue⟩)
        · exact .inl hstate
        · exact .inr ⟨p, List.mem_cons_of_mem s hp, hissue⟩

theorem onlyIssues_iterate {block : List Statement} (h : ∀ s ∈ block, s.Inner allowed)
    (counter : String) (i : Int64) :
    OnlyIssues (Arises block) (iterate counter i (runAll retreat block) : Effect α) :=
  OnlyIssues.andThen (.of_silent fun _ => rfl) (onlyIssues_runAll retreat h)

theorem onlyIssues_branch (condition : String) {block : List Statement}
    (h : ∀ s ∈ block, s.Inner allowed) :
    OnlyIssues (Arises block)
      (branch retreat condition block (runAll retreat block) : Effect α) := by
  intro scene
  unfold branch
  split
  · exact fun i hi => .inl (List.mem_singleton.mp hi ▸ rfl)
  · exact nofun
  · exact OnlyIssues.andThen (.of_silent fun _ => rfl) (onlyIssues_runAll retreat h) scene

/-- A loop within the limit is not refused. -/
theorem onlyIssues_loop (counter : String) {first stop : Int64} {block : List Statement}
    (hlength : stop.toInt - first.toInt ≤ maxIterations.toInt)
    (h : ∀ s ∈ block, s.Inner allowed) :
    OnlyIssues (Arises block)
      ((Statement.loop counter first stop block).run retreat : Effect α) := by
  unfold Statement.run
  split
  · rename_i hentry
    exact absurd hentry (Loop.entry_ne_tooLong hlength)
  · exact .of_silent fun _ => rfl
  · refine OnlyIssues.andThen (.of_silent fun _ => rfl) (OnlyIssues.all ?_)
    intro a ha
    obtain ⟨i, -, rfl⟩ := List.mem_map.mp ha
    exact onlyIssues_iterate retreat h counter i

/-- A problem leads to its own issue, and what is no problem leads to issues of the state and of
the problems in its block. -/
theorem Statement.Outer.leaves {s : Statement} (h : s.Outer allowed) (scene : Scene α) :
    s.Leaves (s.run retreat scene).2.issues := by
  cases h with
  | inner hinner =>
      cases hinner with
      | unrecognized text line reason => exact .problem rfl
      | flat hflat =>
          have hissues := (Statement.Inner.flat hflat).onlyIssues (α := α) retreat scene
          -- a call or an assignment is neither a problem nor a block
          cases hflat with
          | assign _ _ => exact .sound rfl nofun
          | act _ _ _ =>
              refine .sound rfl ?_
              intro i hi
              rcases hissues i hi with hstate | ⟨p, hp, hissue⟩
              · exact .inl hstate
              · cases List.mem_singleton.mp hp
                cases hissue
  | branch _ hbody => exact .sound rfl (onlyIssues_branch retreat _ hbody scene)
  | @loop counter first stop body _ _ _ hlength hbody =>
      exact .sound rfl (onlyIssues_loop retreat counter hlength hbody scene)
  | malformedLoop header line reason => exact .problem rfl

/-! ## Steps -/

/-- A script in progress that goes back to a recognized one. -/
structure Execution.IsRecognized (allowed : ActionSet) (e : Execution) : Prop where
  rest : ∀ s ∈ e.rest, s.Outer allowed
  body : ∀ c, e.active = some c → ∀ s ∈ c.body, s.Inner allowed

/-- The issues that a script in progress can still lead to: those of the loop that it stands in,
and then those of the statements that are to come. -/
inductive Execution.Leaves : Execution → List Issue → Prop
  | between {rest : List Statement} {later : List Issue} : Accounts rest later →
      Leaves (.start rest) later
  | within {c : Cursor} {rest : List Statement} {own later : List Issue} :
      (∀ i ∈ own, Arises c.body i) → Accounts rest later → Leaves ⟨some c, rest⟩ (own ++ later)

theorem accounts_of_leaves {script : List Statement} {issues : List Issue}
    (h : (Execution.start script).Leaves issues) : Accounts script issues := by
  cases h with
  | between haccounts => exact haccounts

theorem Execution.IsRecognized.advance {allowed : ActionSet} {c next : Cursor}
    {rest : List Statement} (h : Execution.IsRecognized allowed ⟨some c, rest⟩)
    (hnext : c.advance? = some next) : Execution.IsRecognized allowed ⟨some next, rest⟩ := by
  unfold Cursor.advance? at hnext
  split at hnext
  · cases hnext
    refine ⟨h.rest, ?_⟩
    intro d hd
    cases hd
    exact h.body c rfl
  · cases hnext

/-- A step reports what its script leads to, up to what is left of the script. -/
theorem leaves_of_advances {delay : Duration} {e : Execution} {scene : Scene α}
    {stepped : Stepped α} (h : Advances retreat delay e scene stepped)
    (he : e.IsRecognized allowed) :
    stepped.execution.IsRecognized allowed ∧
      ∀ issues, stepped.execution.Leaves issues → e.Leaves (stepped.output.issues ++ issues) := by
  induction h with
  | done scene => exact ⟨he, fun _ hissues => hissues⟩
  | @statement s rest scene later _ _ ih =>
      obtain ⟨hs, hrest⟩ := List.forall_mem_cons.mp he.rest
      obtain ⟨hlater, hleaves⟩ := ih ⟨hrest, nofun⟩
      refine ⟨hlater, ?_⟩
      intro issues hissues
      have haccounts := accounts_of_leaves (hleaves issues hissues)
      rw [Stepped.after, Output.issues_append, List.append_assoc]
      exact .between (.cons (hs.leaves retreat scene) haccounts)
  | @opened c rest scene later _ _ ih =>
      obtain ⟨hs, hrest⟩ := List.forall_mem_cons.mp he.rest
      have hbody : ∀ s ∈ c.body, s.Inner allowed := by
        cases hs with
        | inner hinner =>
            cases hinner with
            | flat hflat => cases hflat
        | loop _ _ _ _ hbody => exact hbody
      obtain ⟨hlater, hleaves⟩ := ih ⟨hrest, fun d hd => Option.some.inj hd ▸ hbody⟩
      refine ⟨hlater, ?_⟩
      intro issues hissues
      have hwithin := hleaves issues hissues
      have hopening : (later.after (c.opening scene).2).output.issues = later.output.issues := rfl
      rw [hopening]
      generalize later.output.issues ++ issues = all at hwithin ⊢
      cases hwithin with
      | within hown haccounts => exact .between (.cons (.sound rfl hown) haccounts)
  | @lastRound c rest scene later _ _ ih =>
      obtain ⟨hlater, hleaves⟩ := ih ⟨he.rest, nofun⟩
      refine ⟨hlater, ?_⟩
      intro issues hissues
      have haccounts := accounts_of_leaves (hleaves issues hissues)
      have hround := onlyIssues_iterate (α := α) retreat (he.body c rfl) c.counter c.next scene
      rw [Stepped.after, Output.issues_append, List.append_assoc]
      exact .within hround haccounts
  | @paused c next rest scene hnext =>
      refine ⟨he.advance hnext, ?_⟩
      intro issues hissues
      have hround := onlyIssues_iterate (α := α) retreat (he.body c rfl) c.counter c.next scene
      cases hissues with
      | @within _ _ own later hown haccounts =>
          rw [body_of_advance? hnext] at hown
          rw [Output.issues_append, ← List.append_assoc]
          refine .within ?_ haccounts
          intro i hi
          rcases List.mem_append.mp hi with hnow | hthen
          · rcases List.mem_append.mp hnow with hissue | hpacing
            · exact hround i hissue
            · cases hpacing
          · exact hown i hthen

/-! ## Problems -/

/-- How the issues of a run go back to the problems of its script. -/
structure Accounted (script : List Statement) (issues : List Issue) : Prop where
  inOrder : Accounts script issues
  origin : ∀ i ∈ issues, i.isOfState = true ∨ ∃ p ∈ problems script, p.issue? = some i
  noneMissing : ∀ action, .missingArgument action ∉ issues
  ofState : problems script = [] → ∀ i ∈ issues, i.isOfState = true

theorem isProblem_of_issue? {s : Statement} {i : Issue} (h : s.issue? = some i) :
    s.isProblem = true := by
  cases s with
  | unrecognized | malformedLoop => rfl
  | _ => cases h

/-- A problem at the top level is reported once, before all that comes after it. -/
theorem Accounts.of_problem {s : Statement} {i : Issue} {rest : List Statement}
    {issues : List Issue} (h : Accounts (s :: rest) issues) (hs : s.issue? = some i) :
    ∃ later, issues = i :: later ∧ Accounts rest later := by
  cases h with
  | @cons _ _ own later hown hrest =>
      cases hown with
      | problem hissue =>
          cases hissue.symm.trans hs
          exact ⟨later, rfl, hrest⟩
      | sound hsound _ =>
          rw [isProblem_of_issue? hs] at hsound
          cases hsound

theorem mem_problems {script : List Statement} {s p : Statement} (hs : s ∈ script)
    (hp : p = s ∨ p ∈ s.body) (hproblem : p.isProblem = true) : p ∈ problems script := by
  rw [problems, List.mem_filter, List.mem_flatMap]
  exact ⟨⟨s, hs, List.mem_cons.mpr hp⟩, hproblem⟩

theorem Accounts.origin {script : List Statement} {issues : List Issue}
    (h : Accounts script issues) :
    ∀ i ∈ issues, i.isOfState = true ∨ ∃ p ∈ problems script, p.issue? = some i := by
  -- the statements seen so far stay statements of the whole script
  suffices hwhole : ∀ whole, (∀ s ∈ script, s ∈ whole) →
      ∀ i ∈ issues, i.isOfState = true ∨ ∃ p ∈ problems whole, p.issue? = some i from
    hwhole script fun _ hs => hs
  intro whole
  induction h with
  | nil => exact fun _ => nofun
  | @cons s rest own later hown _ ih =>
      intro hsub i hi
      obtain ⟨hs, hrest⟩ := List.forall_mem_cons.mp hsub
      rcases List.mem_append.mp hi with hnow | hthen
      · cases hown with
        | problem hissue =>
            cases List.mem_singleton.mp hnow
            exact .inr ⟨s, mem_problems hs (.inl rfl) (isProblem_of_issue? hissue), hissue⟩
        | sound _ harises =>
            rcases harises i hnow with hstate | ⟨p, hp, hissue⟩
            · exact .inl hstate
            · exact .inr ⟨p, mem_problems hs (.inr hp) (isProblem_of_issue? hissue), hissue⟩
      · exact ih hrest i hthen

theorem Accounts.accounted {script : List Statement} {issues : List Issue}
    (h : Accounts script issues) : Accounted script issues where
  inOrder := h
  origin := h.origin
  noneMissing := by
    intro action hmem
    rcases h.origin _ hmem with hstate | ⟨p, -, hissue⟩
    · cases hstate
    · cases p with
      | unrecognized | malformedLoop => cases hissue
      | _ => cases hissue
  ofState := by
    intro hnone i hi
    rcases h.origin i hi with hstate | ⟨p, hp, -⟩
    · exact hstate
    · rw [hnone] at hp
      cases hp

end Script

end Playscript
