/-
# Cutover.Proofs.Ramp.Promotion -- the passes that promote one release

The passes of a run are its `visits`, each with the state it meets.  What the other events
of the run leave alone stands before a pass as the pass before it left it
(`chain_visits`).

A `Promotion` is a stretch of passes that make one release the target, keep it the target
and, at its end, may make it active.  A release is told from the others by its position in
one pass, and from one pass to the next by its role: at most one release is the target, and
nobody but a pass writes roles.

A pass of a promotion does nothing or is a step of the ramp for the release in promotion
(`Push.still_or_steps`), whose traffic and count are then `targetTraffic` and
`raisedCount` of what it has available.
-/
import Cutover.Proofs.Ramp.Capacity
import Mathlib.Data.List.Chain

namespace Cutover

set_option autoImplicit false

/-! ## The passes of a run -/

namespace Rollout

/-- A pass of a run: the state it meets, and its time. -/
structure Visit where
  state : Rollout
  now : Nat

namespace Visit

/-- The state that the pass leaves. -/
def next (v : Visit) : Rollout := v.state.step (.pass v.now)

def Moves (v : Visit) : Prop := Ramp.Moves v.state.descriptor v.state.releases v.now

def desired (v : Visit) : Nat := v.state.descriptor.desiredInstances

end Visit

/-- The time of a pass; other events have none. -/
def Event.time? : Event → Option Nat
  | .pass now => some now
  | _ => none

theorem Event.eq_pass {e : Event} {now : Nat} (timed : e.time? = some now) : e = .pass now := by
  cases e <;> cases timed
  rfl

/-- The passes of a run, in order. -/
def visits : Rollout → List Event → List Visit
  | _, [] => []
  | s, e :: rest =>
      match e.time? with
      | some now => ⟨s, now⟩ :: visits (s.step e) rest
      | none => visits (s.step e) rest

/-- Every event of a run is as asked of it in the state it meets. -/
def Throughout (ok : Rollout → Event → Prop) : Rollout → List Event → Prop
  | _, [] => True
  | s, e :: rest => ok s e ∧ Throughout ok (s.step e) rest

theorem permits_iff_throughout (s : Rollout) (es : List Event) :
    s.Permits es ↔ s.Throughout (fun s e => e.Allowed s) es := by
  induction es generalizing s with
  | nil => exact Iff.rfl
  | cons e rest ih => exact and_congr_right fun _ => ih (s.step e)

theorem Throughout.mono {ok ok' : Rollout → Event → Prop} {s : Rollout} {es : List Event}
    (through : s.Throughout ok es) (weaker : ∀ s e, ok s e → ok' s e) : s.Throughout ok' es := by
  induction es generalizing s with
  | nil => trivial
  | cons e rest ih => exact ⟨weaker s e through.1, ih through.2⟩

section Visits

variable {ok : Rollout → Event → Prop} {P : Rollout → Prop} {s : Rollout} {es : List Event}

/-- What every event keeps holds wherever a pass happens, and the pass is as asked. -/
theorem forall_visits (keeps : ∀ s e, ok s e → P s → P (s.step e)) (through : s.Throughout ok es)
    (start : P s) : ∀ v ∈ s.visits es, P v.state ∧ ok v.state (.pass v.now) := by
  induction es generalizing s with
  | nil =>
      intro v member
      cases member
  | cons e rest ih =>
      obtain ⟨here, there⟩ := through
      have later := ih there (keeps s e here start)
      unfold visits
      cases timed : e.time? with
      | none => exact later
      | some now =>
          obtain rfl := Event.eq_pass timed
          exact List.forall_mem_cons.2 ⟨⟨start, here⟩, later⟩

/-- **Between two passes.**  What the events between passes leave alone, a pass finds as the
pass before it left it, and the first pass as the run began with it. -/
theorem chain_visits {α : Type} (f : Rollout → α)
    (keeps : ∀ s e, ok s e → P s → P (s.step e))
    (quiet : ∀ s e, e.time? = none → ok s e → P s → f (s.step e) = f s)
    (through : s.Throughout ok es) (start : P s) :
    (∀ v ∈ (s.visits es).head?, f v.state = f s) ∧
      (s.visits es).IsChain fun v w => f w.state = f v.next := by
  induction es generalizing s with
  | nil =>
      refine ⟨fun v member => ?_, .nil⟩
      cases member
  | cons e rest ih =>
      obtain ⟨here, there⟩ := through
      obtain ⟨first, chain⟩ := ih there (keeps s e here start)
      unfold visits
      cases timed : e.time? with
      | none =>
          refine ⟨fun v member => ?_, chain⟩
          rw [first v member, quiet s e timed here start]
      | some now =>
          obtain rfl := Event.eq_pass timed
          refine ⟨fun v member => ?_, List.isChain_cons.2 ⟨first, chain⟩⟩
          cases member
          rfl

end Visits

/-- A pass leaves the state as it is, or carries out its plan. -/
theorem step_pass (s : Rollout) (now : Nat) :
    s.step (.pass now) = s ∨
      Ramp.Moves s.descriptor s.releases now ∧ ∃ p,
        Ramp.planOf? s.descriptor s.releases = some p ∧
        s.step (.pass now) = ⟨(p.carryOut s.descriptor s.releases now).descriptor,
          p.spread s.descriptor.desiredInstances s.descriptor.readinessTimeout now s.releases⟩ := by
  by_cases moves : Ramp.Moves s.descriptor s.releases now
  · obtain ⟨p, planned, passed⟩ := moves.exists_plan
    refine .inr ⟨moves, p, planned, ?_⟩
    simp only [step, passed]
    rw [Ramp.releases_carryOut (Ramp.planOf?_sound planned)]
  · left
    by_cases empty : s.releases = []
    · simp [step, empty, Ramp.pass_eq]
    · obtain ⟨outcome, passed⟩ := Ramp.pass_of_not_moves empty moves
      simp only [step, passed]

end Rollout

namespace Ramp

open Rollout

variable {d : Descriptor} {rs : List Release} {now : Nat} {p : Plan}

/-! ## The release in promotion in one pass -/

theorem activeIndex_eq_of_active {rs : List Release} (routed : Routed rs) {i : Nat} {r : Release}
    (at_ : rs[i]? = some r) (active : r.spec.role = .active) : activeIndex rs = some i := by
  obtain ⟨a, old, found, oldAt, isActive⟩ := routed.exists_active
  have same : a = i := index_unique (Nat.le_of_eq routed.one_active) oldAt at_
    (by simpa using isActive) (by simpa using active)
  rw [found, same]

/-- A plan for a release that is not active, with instances wanted, is a step of the ramp: its
parts are those of `Plan.Made.ramping`. -/
structure Plan.Steps (p : Plan) (d : Descriptor) (i : Nat) (r : Release) : Prop where
  target : p.target = i
  positive : 0 < d.desiredInstances
  notActive : r.spec.role ≠ .active
  traffic : p.traffic =
    targetTraffic d d.desiredInstances r.status.numAvailable r.spec.traffic
  count : p.count =
    max r.spec.numDesired (raisedCount d d.desiredInstances r.status.numAvailable)
  moved : p.traffic ≠ r.spec.traffic → p.changed = true

theorem steps_of_target (routed : Routed rs) (planned : planOf? d rs = some p)
    (positive : 0 < d.desiredInstances) {r : Release} (at_ : rs[p.target]? = some r)
    (notActive : r.spec.role ≠ .active) : p.Steps d p.target r := by
  obtain ⟨c, r', -, at', -, made⟩ := planOf?_made planned
  rw [made.target_eq] at at_ ⊢
  cases at_.symm.trans at'
  obtain ⟨a, old, found, oldAt, isActive⟩ := routed.exists_active
  cases made with
  | stopped zero => omega
  | steady _ own =>
      rcases own with none_ | some_
      · rw [found] at none_
        cases none_
      · obtain ⟨x, there, active⟩ := activeIndex_spec some_
        cases there.symm.trans at_
        exact absurd active notActive
  | @ramping a' _ active ne traffic raised given raise =>
      refine ⟨rfl, positive, notActive, given, raise ▸ rfl, fun moved => ?_⟩
      have moved : traffic ≠ r.spec.traffic := moved
      simp [moved]

/-- A release that a pass leaves as the target was the one its plan is made for. -/
theorem steps_of_left_target (routed : Routed rs) (planned : planOf? d rs = some p) {i : Nat}
    {r r' : Release} (at_ : rs[i]? = some r)
    (after : (p.spread d.desiredInstances d.readinessTimeout now rs)[i]? = some r')
    (target : r'.spec.role = .target) : p.Steps d i r := by
  obtain ⟨rfl, ne⟩ := (target_spread_iff after).1 target
  obtain ⟨c, x, -, -, -, made⟩ := planOf?_made planned
  have positive : 0 < d.desiredInstances := by
    cases made with
    | stopped zero => exact absurd rfl ne
    | steady positive _ => exact positive
    | ramping positive => exact positive
  refine steps_of_target routed planned positive at_ fun active => ?_
  cases made with
  | stopped zero => exact ne rfl
  | steady _ own => exact ne rfl
  | @ramping a _ found other traffic raised given raise =>
      have same := (activeIndex_eq_of_active routed at_ active).symm.trans found
      exact other (Option.some.inj same).symm

/-- A release that a pass makes active, with instances wanted, was the one its plan is made
for, and has all traffic. -/
theorem steps_of_made_active (routed : Routed rs) (planned : planOf? d rs = some p)
    (positive : 0 < d.desiredInstances) {i : Nat} {r r' : Release} (at_ : rs[i]? = some r)
    (after : (p.spread d.desiredInstances d.readinessTimeout now rs)[i]? = some r')
    (notActive : r.spec.role ≠ .active) (active : r'.spec.role = .active) :
    p.Steps d i r ∧ p.traffic = 100 := by
  obtain rfl := (active_spread_iff after).1 active
  have same : p.active = p.target := by
    by_contra ne
    obtain ⟨c, x, -, -, -, made⟩ := planOf?_made planned
    exact notActive (made.active_of_ne ne at_)
  have whole := (planOf?_sound planned).whole_iff.1 same
  rw [same] at at_ ⊢
  exact ⟨steps_of_target routed planned positive at_ notActive, whole⟩

section Steps

variable {i : Nat} {r r' : Release}

theorem Plan.Steps.traffic_eq (steps : p.Steps d i r)
    (after : (p.spread d.desiredInstances d.readinessTimeout now rs)[i]? = some r') :
    r'.spec.traffic = targetTraffic d d.desiredInstances r.status.numAvailable r.spec.traffic := by
  obtain ⟨-, -, -, share, -⟩ := role_spread after
  rw [share, ← steps.traffic, Plan.share]
  split
  · rw [if_pos steps.target.symm]
  · rw [if_pos steps.target.symm]

theorem Plan.Steps.count_eq (steps : p.Steps d i r)
    (after : (p.spread d.desiredInstances d.readinessTimeout now rs)[i]? = some r') :
    r'.spec.numDesired =
      max r.spec.numDesired (raisedCount d d.desiredInstances r.status.numAvailable) := by
  obtain ⟨x, -, rfl⟩ := exists_of_spread_getElem? after
  rw [mark_spec, numDesired_assign, if_pos steps.target.symm, steps.count]

end Steps

/-! ## Promotions -/

/-- What one pass does to the release in promotion: the release before and after it. -/
structure Push where
  visit : Visit
  before : Release
  after : Release

namespace Push

/-- The release stands at one position before and after the pass. -/
def Here (x : Push) : Prop :=
  ∃ i : Nat, x.visit.state.releases[i]? = some x.before ∧ x.visit.next.releases[i]? = some x.after

/-- The pass leaves the release as the target, or promotes it. -/
def Pursues (x : Push) : Prop :=
  x.after.spec.role = .target ∨ x.before.spec.role = .target ∧ x.after.spec.role = .active

instance (x : Push) : Decidable x.Pursues := by
  unfold Pursues
  infer_instance

end Push

/-- Consecutive passes of a run that promote one release: each leaves it as the target for the
next to find, and the last may promote it. -/
structure Promotion (vs : List Visit) (xs : List Push) : Prop where
  consecutive : xs.map (·.visit) <:+: vs
  here : ∀ x ∈ xs, x.Here
  pursues : ∀ x ∈ xs, x.Pursues
  handed : xs.IsChain fun x y => x.after.spec.role = .target ∧ y.before.spec.role = .target

/-- **One pass of a promotion.**  It does nothing, or is a step of the ramp for the release in
promotion. -/
theorem Push.still_or_steps (x : Push) (routed : Routed x.visit.state.releases) (here : x.Here)
    (pursues : x.Pursues) (positive : x.after.spec.role = .active → 0 < x.visit.desired) :
    (x.visit.next = x.visit.state ∧ x.after = x.before) ∨
    (x.visit.Moves ∧ ∃ (p : Plan) (i : Nat),
      p.Steps x.visit.state.descriptor i x.before ∧
      x.visit.state.releases[i]? = some x.before ∧
      x.visit.next.descriptor =
        (p.carryOut x.visit.state.descriptor x.visit.state.releases x.visit.now).descriptor ∧
      x.after.spec.traffic = targetTraffic x.visit.state.descriptor x.visit.desired
        x.before.status.numAvailable x.before.spec.traffic) := by
  obtain ⟨i, at_, after⟩ := here
  rcases x.visit.state.step_pass x.visit.now with same | ⟨moves, p, planned, stepped⟩
  · left
    have same : x.visit.next = x.visit.state := same
    rw [same] at after
    exact ⟨same, Option.some.inj (after.symm.trans at_)⟩
  · right
    have next : x.visit.next = _ := stepped
    rw [next] at after
    have steps : p.Steps x.visit.state.descriptor i x.before := by
      rcases pursues with target | ⟨target, active⟩
      · exact steps_of_left_target routed planned at_ after target
      · have notActive : x.before.spec.role ≠ .active := by
          rw [target]
          decide
        exact (steps_of_made_active routed planned (positive active) at_ after notActive active).1
    exact ⟨moves, p, i, steps, at_, by rw [next], steps.traffic_eq after⟩

/-! ## From pass to pass -/

/-- Only a pass changes the traffic of the target. -/
theorem trafficOf_target_step (s : Rollout) (e : Event) (quiet : e.time? = none)
    (allowed : e.Allowed s) : trafficOf .target (s.step e).releases = trafficOf .target s.releases := by
  cases e with
  | pass now => cases quiet
  | observe i status =>
      exact trafficOf_eq_of_faces
        (map_face_modify s.releases i (fun r => { r with status }) fun _ _ => rfl) _
  | describe d => rfl
  | add r =>
      show trafficOf .target (r :: s.releases) = _
      unfold trafficOf
      rw [List.filter_cons_of_neg (by simp [allowed.role])]
  | store i info =>
      refine trafficOf_eq_of_faces
        (map_face_modify s.releases i (fun r => { r with info }) fun r at_ => ?_) _
      have label := allowed r at_
      simp only [face, Object.label?] at label ⊢
      rw [label]
  | drop i =>
      show trafficOf .target (s.releases.eraseIdx i) = _
      by_cases lt : i < s.releases.length
      · obtain ⟨-, notTarget⟩ := allowed _ (List.getElem?_eq_getElem lt)
        have perm := ((List.getElem_cons_eraseIdx_perm lt).filter
          (·.spec.role = .target)).map (·.spec.traffic)
        rw [List.filter_cons_of_neg (by simpa using notTarget)] at perm
        exact perm.sum_nat
      · rw [List.eraseIdx_of_length_le (by omega)]
  | arrange rs => exact ((allowed.filter _).map _).sum_nat

/-- The traffic of the target is that of the release in promotion. -/
theorem Push.trafficOf_before {x : Push} (routed : Routed x.visit.state.releases) (here : x.Here)
    (target : x.before.spec.role = .target) :
    trafficOf .target x.visit.state.releases = x.before.spec.traffic := by
  obtain ⟨i, at_, -⟩ := here
  exact trafficOf_eq routed.one_target (List.mem_of_getElem? at_) target

theorem Push.trafficOf_after {x : Push} (routed : Routed x.visit.next.releases) (here : x.Here)
    (target : x.after.spec.role = .target) :
    trafficOf .target x.visit.next.releases = x.after.spec.traffic := by
  obtain ⟨i, -, after⟩ := here
  exact trafficOf_eq routed.one_target (List.mem_of_getElem? after) target

/-- A promotion that a run of allowed events makes sees a balanced list before and after each
of its passes. -/
theorem Promotion.balanced {s : Rollout} {es : List Event} {xs : List Push}
    (balanced : Balanced s.releases) (permits : s.Permits es)
    (promotion : Promotion (s.visits es) xs) :
    ∀ x ∈ xs, Balanced x.visit.state.releases ∧ Balanced x.visit.next.releases := by
  intro x member
  have visited : x.visit ∈ s.visits es :=
    promotion.consecutive.subset (List.mem_map.2 ⟨x, member, rfl⟩)
  have state := (forall_visits (P := fun s => Balanced s.releases) balanced_step
    ((permits_iff_throughout s es).1 permits) balanced x.visit visited).1
  exact ⟨state, balanced_step _ _ trivial state⟩

/-- **Between two passes of a promotion** the release keeps its traffic. -/
theorem Promotion.traffic_handed {s : Rollout} {es : List Event} {xs : List Push}
    (balanced : Balanced s.releases) (permits : s.Permits es)
    (promotion : Promotion (s.visits es) xs) :
    xs.IsChain fun x y => y.before.spec.traffic = x.after.spec.traffic := by
  have chain := (chain_visits (P := fun s => Balanced s.releases)
    (fun s => trafficOf .target s.releases) balanced_step
    (fun s e quiet allowed _ => trafficOf_target_step s e quiet allowed)
    ((permits_iff_throughout s es).1 permits) balanced).2
  have consecutive := List.IsChain.infix chain promotion.consecutive
  have pushed := (List.isChain_map Push.visit).1 consecutive
  have balance := promotion.balanced balanced permits
  rw [List.isChain_iff_getElem] at pushed ⊢
  -- At both ends the release is the one target, so its traffic is all that targets have.
  intro i lt
  obtain ⟨after, before⟩ := List.isChain_iff_getElem.1 promotion.handed i lt
  have here := promotion.here
  have first : xs[i] ∈ xs := List.getElem_mem _
  have second : xs[i + 1] ∈ xs := List.getElem_mem _
  rw [← Push.trafficOf_before (balance _ second).1.toRouted (here _ second) before,
    ← Push.trafficOf_after (balance _ first).2.toRouted (here _ first) after]
  exact pushed i lt

/-- What the passes do to the release at one position. -/
def pushesAt (i : Nat) (vs : List Visit) : List Push := vs.filterMap fun v =>
  match v.state.releases[i]?, v.next.releases[i]? with
  | some before, some after => some ⟨v, before, after⟩
  | _, _ => none

theorem here_of_mem_pushesAt {i : Nat} {vs : List Visit} : ∀ x ∈ pushesAt i vs, x.Here := by
  intro x member
  obtain ⟨v, -, found⟩ := List.mem_filterMap.1 member
  split at found
  · rename_i before after at_ at'
    cases found
    exact ⟨i, at_, at'⟩
  · cases found

end Ramp
end Cutover
