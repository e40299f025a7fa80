/-
# Cutover.Proofs.Ramp.Rollout -- runs of the ramp among other events

A `Rollout` is a descriptor with its releases.  Between passes at any times the
releases report new statuses, the descriptor is edited, new releases are cut, stored
and listed in another order, and releases without a part in the split are dropped.
An event may have a condition on the state it meets (`Event.Allowed`); `Permits` says
that every event of a run meets its own.

`run_induction` carries what every allowed event keeps to every run.
-/
import Cutover.Proofs.Ramp.Step
import Cutover.Release.Name

namespace Cutover

set_option autoImplicit false

/-! ## Fresh releases -/

/-- What a release is before its first pass: without role, traffic and mark. -/
structure Release.IsFresh (r : Release) : Prop where
  role : r.spec.role = .none
  traffic : r.spec.traffic = 0
  unmarked : r.label? Label.promotionTarget = none

theorem Label.get?_ofTarget (app target label : String) (h : label ≠ Label.app)
    (h' : label ≠ Label.target) (h'' : label ≠ managedBy) :
    (ofTarget app target).get? label = none := by
  show (((∅ : Dict String).insert Label.app app |>.insert Label.target target).insert
    managedBy manager).get? label = none
  rw [Dict.get?_insert_of_ne _ _ h'', Dict.get?_insert_of_ne _ _ h', Dict.get?_insert_of_ne _ _ h,
    Dict.get?_emptyCollection]

/-- The release a descriptor's pass cuts is fresh. -/
theorem Release.cut_isFresh (d : Descriptor) (build : Build) (targetHash : String)
    (config : Option (String × String)) : (cut d build targetHash config).IsFresh where
  role := rfl
  traffic := rfl
  unmarked := by
    have base : ∀ app target, (Label.ofTarget app target).get? Label.promotionTarget = none :=
      fun app target => Label.get?_ofTarget app target _ (by decide) (by decide) (by decide)
    unfold cut Object.label?
    cases config with
    | none =>
        simp only
        rw [Dict.get?_insert_of_ne _ _ (by decide), Dict.get?_insert_of_ne _ _ (by decide), base]
    | some entry =>
        simp only
        rw [Dict.get?_insert_of_ne _ _ (by decide), Dict.get?_insert_of_ne _ _ (by decide),
          Dict.get?_insert_of_ne _ _ (by decide), base]

/-! ## Events and runs -/

/-- A descriptor with its releases. -/
structure Rollout where
  descriptor : Descriptor
  releases : List Release

namespace Rollout

inductive Event where
  /-- A pass of the ramp at a time. -/
  | pass (now : Nat)
  /-- The release at a position reports a status. -/
  | observe (position : Nat) (status : ReleaseStatus)
  /-- The descriptor is replaced, its status included. -/
  | describe (d : Descriptor)
  /-- A release is cut. -/
  | add (r : Release)
  /-- The store numbers and dates the release at a position. -/
  | store (position : Nat) (info : Meta)
  /-- The release at a position is deleted. -/
  | drop (position : Nat)
  /-- The releases are listed in another order. -/
  | arrange (rs : List Release)

/-- What an event asks of the state it meets: cut releases are fresh, storing leaves the
mark of a promotion alone, and no release is deleted that has a part in the split. -/
def Event.Allowed (s : Rollout) : Event → Prop
  | add r => r.IsFresh
  | store i info => ∀ r, s.releases[i]? = some r →
      info.labels.get? Label.promotionTarget = r.label? Label.promotionTarget
  | drop i => ∀ r, s.releases[i]? = some r → r.spec.role ≠ .active ∧ r.spec.role ≠ .target
  | arrange rs => rs.Perm s.releases
  | _ => True

/-- The state after one event.  A failing pass leaves it as it is. -/
def step (s : Rollout) : Event → Rollout
  | .pass now =>
      match Ramp.pass s.descriptor s.releases now with
      | .ok result => ⟨result.descriptor, result.releases⟩
      | .error _ => s
  | .observe i status => { s with releases := s.releases.modify i fun r => { r with status } }
  | .describe d => { s with descriptor := d }
  | .add r => { s with releases := r :: s.releases }
  | .store i info => { s with releases := s.releases.modify i fun r => { r with info } }
  | .drop i => { s with releases := s.releases.eraseIdx i }
  | .arrange rs => { s with releases := rs }

def run (s : Rollout) (es : List Event) : Rollout := es.foldl step s

/-- Every event of a run is allowed where it happens. -/
def Permits : Rollout → List Event → Prop
  | _, [] => True
  | s, e :: rest => e.Allowed s ∧ Permits (s.step e) rest

/-- What every allowed event keeps, every permitted run keeps. -/
theorem run_induction {P : Rollout → Prop}
    (keeps : ∀ (s : Rollout) (e : Event), e.Allowed s → P s → P (s.step e))
    (s : Rollout) (es : List Event) (permits : s.Permits es) (start : P s) : P (s.run es) := by
  induction es generalizing s with
  | nil => exact start
  | cons e rest ih => exact ih (s.step e) permits.2 (keeps s e permits.1 start)

/-- After a pass the releases are as they were, or as the plan spread them. -/
theorem releases_step_pass (s : Rollout) (now : Nat) :
    (s.step (.pass now)).releases = s.releases ∨
      ∃ p, Ramp.planOf? s.descriptor s.releases = some p ∧
        (s.step (.pass now)).releases =
          p.spread s.descriptor.desiredInstances s.descriptor.readinessTimeout now s.releases := by
  by_cases moves : Ramp.Moves s.descriptor s.releases now
  · obtain ⟨p, planned, passed⟩ := moves.exists_plan
    refine .inr ⟨p, planned, ?_⟩
    simp only [step, passed]
    exact Ramp.releases_carryOut (Ramp.planOf?_sound planned)
  · left
    by_cases empty : s.releases = []
    · simp [step, empty, Ramp.pass_eq]
    · obtain ⟨outcome, passed⟩ := Ramp.pass_of_not_moves empty moves
      simp only [step, passed]

end Rollout

/-! ## Concrete releases -/

namespace Sample

/-- A stored release of the application `web` in the target `prod`. -/
def release (name : String) (createdAt : Nat) (role : ReleaseRole) (traffic count : Nat) :
    Release where
  info := { Meta.fresh "prod" name with createdAt, specVersion := 1, statusVersion := 1 }
  spec := { app := "web", target := "prod", build := "web-v1", config := "", numDesired := count,
            role, traffic, runtime := default }
  status := default

/-- A descriptor that wants a fixed count of instances behind one port. -/
def descriptor (count : Nat) : Descriptor where
  info := { Meta.fresh "" "web-prod" with createdAt := 1, specVersion := 1, statusVersion := 1 }
  spec := { app := "web", target := "prod", build := "web-v1", deployMode := .latest,
            runtime := { (default : Runtime) with ports := [⟨"http", 8080, .tcp⟩] },
            configs := [], scale := ⟨count, count, 0⟩, ingress := none }
  status := default

end Sample
end Cutover
