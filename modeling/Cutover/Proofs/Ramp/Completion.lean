/-
# Cutover.Proofs.Ramp.Completion -- a healthy rollout comes to its end

In a `Round` every release reports all the instances it is to run as available, and then a
pass happens.  Where rounds are a readiness timeout apart no pass is held, and the newest
release that is not bad climbs with every pass until it is active.

How fast it climbs does not depend on what happened before (`Climbing`).  Its count after
`k` passes is at least `k` strides, and seven strides are the desired count, or one without
ports (`desired_le_strides`).  Its share of available instances then exceeds what a step of
traffic allows from the fifth pass on, or the second (`le_share`), so that it has all
traffic after eight passes, or two.  The climb ends by promotion, and a release once
promoted stays where it is (`Arrived`).
-/
import Cutover.Proofs.Ramp.Pace
import Cutover.Proofs.Ramp.Rest
import Mathlib.Tactic.IntervalCases

namespace Cutover

set_option autoImplicit false

/-! ## The newest release that is not bad -/

namespace Release

/-- Two releases that recency takes for one another. -/
structure Coeval (r o : Release) : Prop where
  persisted : r.info.isPersisted = o.info.isPersisted
  created : r.info.createdAt = o.info.createdAt
  name : r.info.name = o.info.name

theorem isNewer_congr {a a' b b' : Release} (first : Coeval a a') (second : Coeval b b') :
    isNewer a b = isNewer a' b' := by
  have same : recency a b = recency a' b' := by
    simp only [recency, first.persisted, first.created, first.name, second.persisted,
      second.created, second.name]
  rw [isNewer, isNewer, same]

theorem newest_map {g : Release × Nat → Release × Nat} (xs : List (Release × Nat))
    (coeval : ∀ x, Coeval (g x).1 x.1) : newest (xs.map g) = (newest xs).map g := by
  induction xs with
  | nil => rfl
  | cons x rest ih =>
      simp only [List.map_cons, newest, ih]
      cases newest rest with
      | none => rfl
      | some y =>
          simp only [Option.map_some, isNewer_congr (coeval y) (coeval x)]
          split <;> rfl

/-- The release at a position is the newest of those that are not bad. -/
def Foremost (rs : List Release) (c : Nat) (r : Release) : Prop :=
  newest (rs.zipIdx.filter (·.1.spec.role ≠ .bad)) = some (r, c)

instance (rs : List Release) (c : Nat) (r : Release) : Decidable (Foremost rs c r) := by
  unfold Foremost
  infer_instance

namespace Foremost

variable {rs : List Release} {c : Nat} {r : Release}

theorem here (h : Foremost rs c r) : rs[c]? = some r :=
  List.mem_zipIdx_iff_getElem?.1 (List.mem_filter.1 (newest_mem h)).1

/-- It stays the newest where ages stay as they are and the same releases are bad. -/
theorem mapIdx (h : Foremost rs c r) {f : Nat → Release → Release}
    (coeval : ∀ i x, Coeval (f i x) x)
    (bad : ∀ i x, rs[i]? = some x → ((f i x).spec.role = .bad ↔ x.spec.role = .bad)) :
    Foremost (rs.mapIdx f) c (f c r) := by
  let g (x : Release × Nat) : Release × Nat := (f x.2 x.1, x.2)
  have indexed : (rs.mapIdx f).zipIdx = rs.zipIdx.map g := by
    apply List.ext_getElem?
    intro i
    simp only [List.getElem?_zipIdx, List.getElem?_mapIdx, List.getElem?_map]
    cases rs[i]? <;> simp [g]
  have kept : (rs.zipIdx.map g).filter (·.1.spec.role ≠ .bad) =
      (rs.zipIdx.filter (·.1.spec.role ≠ .bad)).map g := by
    rw [List.filter_map]
    refine congrArg (List.map g) (List.filter_congr ?_)
    rintro ⟨x, i⟩ member
    have same := bad i x (List.mem_zipIdx_iff_getElem?.1 member)
    simp [g, same]
  show newest (((rs.mapIdx f).zipIdx).filter _) = some (g (r, c))
  rw [indexed, kept, newest_map _ fun x => coeval x.2 x.1, h]
  rfl

/-- It is the candidate where no release has failed. -/
theorem firstDeployable_eq (h : Foremost rs c r) (sane : ∀ x ∈ rs, x.status.state ≠ .failed) :
    firstDeployable rs = some c := by
  have same : (rs.zipIdx.filter fun x => isDeployable x.1) =
      rs.zipIdx.filter (·.1.spec.role ≠ .bad) := by
    refine List.filter_congr ?_
    rintro ⟨x, i⟩ member
    have := sane x (List.mem_of_getElem? (List.mem_zipIdx_iff_getElem?.1 member))
    rw [Bool.eq_iff_iff]
    simp [isDeployable, this]
  rw [firstDeployable, same, h]
  rfl

end Foremost

end Release

/-! ## Rounds -/

namespace Rollout

/-- A pass, and the statuses that releases report before it, by position. -/
structure Round where
  now : Nat
  report : Nat → Release → ReleaseStatus

namespace Round

variable (x : Round)

/-- A release has reported, with all its instances available. -/
def seen (i : Nat) (r : Release) : Release :=
  { r with status := { x.report i r with numAvailable := r.spec.numDesired } }

/-- Every release reports. -/
def observe (rs : List Release) : List Release := rs.mapIdx x.seen

/-- No release fails. -/
def Healthy : Prop := ∀ i r, r.status.state ≠ .failed → (x.report i r).state ≠ .failed

end Round

def round (s : Rollout) (x : Round) : Rollout :=
  step { s with releases := x.observe s.releases } (.pass x.now)

def rounds (s : Rollout) (xs : List Round) : Rollout := xs.foldl round s

end Rollout

namespace Ramp

open Rollout Release

variable {d : Descriptor} {rs : List Release} {now c : Nat} {r : Release} {p : Plan}

/-! ## How a release climbs -/

/-- The instances that a step adds. -/
def stride (d : Descriptor) : Nat := max (percentOf d.desiredInstances (stepPercent d)) 1

/-- The passes that a rollout takes at most. -/
def passesNeeded (d : Descriptor) : Nat := if d.needsService then 8 else 2

/-- The passes before the traffic of a release rises by a full step each. -/
def passesBefore (d : Descriptor) : Nat := if d.needsService then 4 else 1

/-- The desired count takes one pass less than the rollout. -/
theorem desired_le_strides (fits : d.desiredInstances ≤ maxCount) :
    d.desiredInstances ≤ (passesNeeded d - 1) * stride d := by
  unfold stride passesNeeded stepPercent percentOf increment
  split <;> omega

/-- From so many strides on, the available share is no less than what full steps give. -/
theorem le_share (fits : d.desiredInstances ≤ maxCount) (positive : 0 < d.desiredInstances)
    {k available : Nat} (early : k < passesNeeded d)
    (enough : min d.desiredInstances (k * stride d) ≤ available) :
    stepPercent d * (k + 1 - passesBefore d) ≤ 100 ∧
      stepPercent d * (k + 1 - passesBefore d) ≤
        sharePercent (min available d.desiredInstances) d.desiredInstances := by
  have strides := desired_le_strides fits
  have large : 100 ≤ maxCount := by decide
  generalize stride d = q at strides enough
  generalize d.desiredInstances = desired at *
  have reached : stepPercent d * (k + 1 - passesBefore d) ≤ 100 ∧
      stepPercent d * (k + 1 - passesBefore d) * desired ≤ min available desired * 100 := by
    cases service : d.needsService with
    | true =>
        simp only [passesNeeded, passesBefore, stepPercent, increment, service, if_true] at *
        interval_cases k <;> omega
    | false =>
        simp only [passesNeeded, passesBefore, stepPercent, service, Bool.false_eq_true,
          if_false] at *
        interval_cases k <;> omega
  refine ⟨reached.1, ?_⟩
  rw [sharePercent, if_neg (Nat.pos_iff_ne_zero.1 positive)]
  exact Nat.le_min.2 ⟨(Nat.le_div_iff_mul_le positive).2 reached.2,
    Nat.le_trans reached.1 large⟩

/-- How far a release has climbed in so many passes, if it is not active yet. -/
structure Risen (d : Descriptor) (k : Nat) (r : Release) : Prop where
  waiting : r.spec.role ≠ .active
  short : r.spec.traffic < 100
  count : min d.desiredInstances (k * stride d) ≤ r.spec.numDesired
  traffic : stepPercent d * (k - passesBefore d) ≤ r.spec.traffic

/-- Nothing has risen for as long as a rollout takes. -/
theorem Risen.lt {k : Nat} (risen : Risen d k r) (bound : k ≤ passesNeeded d) :
    k < passesNeeded d := by
  rcases Nat.lt_or_eq_of_le bound with lt | rfl
  · exact lt
  · have traffic := risen.traffic
    have short := risen.short
    unfold stepPercent passesBefore passesNeeded increment at traffic
    split at traffic <;> omega

section Climb

variable (fits : d.desiredInstances ≤ maxCount) (positive : 0 < d.desiredInstances) {k : Nat}
  (risen : Risen d k r) (available : r.status.numAvailable = r.spec.numDesired)

include risen available

theorem Risen.le_raisedCount : min d.desiredInstances ((k + 1) * stride d) ≤
    raisedCount d d.desiredInstances r.status.numAvailable := by
  have count := risen.count
  rw [Nat.succ_mul, available]
  show _ ≤ min (r.spec.numDesired + stride d) d.desiredInstances
  omega

include fits positive

theorem Risen.le_targetTraffic (early : k < passesNeeded d) :
    stepPercent d * (k + 1 - passesBefore d) ≤
      targetTraffic d d.desiredInstances r.status.numAvailable r.spec.traffic := by
  obtain ⟨whole, share⟩ := le_share fits positive early (available ▸ risen.count)
  have risen := risen.traffic
  have step : stepPercent d * (k + 1 - passesBefore d) ≤
      stepPercent d * (k - passesBefore d) + stepPercent d := by
    rw [← Nat.mul_succ]
    exact Nat.mul_le_mul_left _ (by omega)
  unfold targetTraffic
  omega

end Climb

/-! ## One pass -/

/-- A plan leaves the bad releases bad and makes no other one bad. -/
theorem bad_iff_of_planned (planned : planOf? d rs = some p) {desired timeout i : Nat}
    {before : Release} (at_ : rs[i]? = some before) :
    (p.mark i (p.assign desired timeout now i before)).spec.role = .bad ↔
      before.spec.role = .bad := by
  refine bad_spread_iff at_ (getElem?_spread at_) ?_ ?_
  · rintro rfl
    obtain ⟨active, activeAt, notBad⟩ := planOf?_active_spec planned
    cases at_.symm.trans activeAt
    exact notBad
  · rintro rfl
    obtain ⟨target, targetAt, notBad, -⟩ := planOf?_target_spec planned
    cases at_.symm.trans targetAt
    exact notBad

/-- A plan leaves the age of a release alone. -/
theorem coeval_assign (p : Plan) (desired timeout now i : Nat) (r : Release) :
    Coeval (p.mark i (p.assign desired timeout now i r)) r :=
  ⟨by simp [Plan.mark, Meta.isPersisted], by simp [Plan.mark], by simp [Plan.mark]⟩

theorem foremost_spread (foremost : Foremost rs c r) (planned : planOf? d rs = some p)
    (desired timeout now : Nat) :
    Foremost (p.spread desired timeout now rs) c
      (p.mark c (p.assign desired timeout now c r)) :=
  foremost.mapIdx (coeval_assign p desired timeout now) fun _ _ at_ =>
    bad_iff_of_planned planned at_

theorem sane_spread (sane : ∀ x ∈ rs, x.status.state ≠ .failed) (p : Plan)
    (desired timeout now : Nat) :
    ∀ x ∈ p.spread desired timeout now rs, x.status.state ≠ .failed := by
  intro x member
  obtain ⟨i, at_⟩ := List.getElem?_of_mem member
  obtain ⟨before, beforeAt, rfl⟩ := exists_of_spread_getElem? at_
  rw [mark_status, status_assign]
  exact sane before (List.mem_of_getElem? beforeAt)

/-- The plan for a list without failed releases is one for the newest that is not bad. -/
theorem exists_planned (foremost : Foremost rs c r) (sane : ∀ x ∈ rs, x.status.state ≠ .failed)
    (free : hold? d rs now = none) : ∃ p, planOf? d rs = some p ∧ Plan.Made d rs c r p ∧
      (⟨d, rs⟩ : Rollout).step (.pass now) = ⟨(p.carryOut d rs now).descriptor,
        p.spread d.desiredInstances d.readinessTimeout now rs⟩ := by
  have first := foremost.firstDeployable_eq sane
  have moves : Moves d rs now := ⟨free, by simp [first]⟩
  obtain ⟨p, planned, passed⟩ := moves.exists_plan
  obtain ⟨c', r', found, at_, -, made⟩ := planOf?_made planned
  obtain rfl : c = c' := Option.some.inj (first.symm.trans found)
  cases foremost.here.symm.trans at_
  refine ⟨p, planned, made, ?_⟩
  simp only [step, passed]
  rw [releases_carryOut (planOf?_sound planned)]

/-- **One pass of a climb.**  The plan is for the climbing release, which is promoted with at
least the desired count, or climbs on. -/
theorem Risen.pass {k : Nat} (risen : Risen d k r) (available : r.status.numAvailable = r.spec.numDesired)
    (fits : d.desiredInstances ≤ maxCount) (positive : 0 < d.desiredInstances)
    (early : k < passesNeeded d) (foremost : Foremost rs c r) (routed : Routed rs)
    (planned : planOf? d rs = some p) (made : Plan.Made d rs c r p) {r' : Release}
    (after : (p.spread d.desiredInstances d.readinessTimeout now rs)[c]? = some r') :
    (p.traffic = 100 → r'.spec.role = .active ∧ r'.spec.traffic = 100 ∧
      d.desiredInstances ≤ r'.spec.numDesired) ∧
    (p.traffic ≠ 100 → Risen d (k + 1) r') := by
  have sound := planOf?_sound planned
  have steps : p.Steps d c r := by
    have targetAt : rs[p.target]? = some r := made.target_eq ▸ foremost.here
    have steps := steps_of_target routed planned positive targetAt risen.waiting
    rwa [made.target_eq] at steps
  have traffic := steps.traffic_eq after
  have count := steps.count_eq after
  have given : p.traffic = r'.spec.traffic := steps.traffic.trans traffic.symm
  constructor
  · intro whole
    have promoted : c = p.active := steps.target.symm.trans (sound.whole_iff.2 whole).symm
    refine ⟨(active_spread_iff after).2 promoted, given.symm.trans whole, ?_⟩
    have all := available_of_whole positive risen.short (traffic.symm.trans (given.symm.trans whole))
    omega
  · intro short
    have le := sound.traffic_le
    have other : ¬ c = p.active := fun same =>
      short (sound.whole_iff.1 (same.symm.trans steps.target.symm))
    refine ⟨mt (active_spread_iff after).1 other, by omega, ?_, ?_⟩
    · have raised := risen.le_raisedCount available
      omega
    · rw [traffic]
      exact risen.le_targetTraffic fits positive available early

/-! ## Rounds of a climb -/

/-- Two descriptors that ask for the same. -/
structure Alike (d e : Descriptor) : Prop where
  spec : e.spec = d.spec
  desired : e.desiredInstances = d.desiredInstances

namespace Alike

variable {e : Descriptor} (alike : Alike d e)

include alike

theorem needsService : e.needsService = d.needsService := by
  unfold Object.needsService
  rw [alike.spec]

theorem readinessTimeout : e.readinessTimeout = d.readinessTimeout := by
  unfold Object.readinessTimeout
  rw [alike.spec]

theorem passesNeeded : passesNeeded e = passesNeeded d := by
  unfold Ramp.passesNeeded
  rw [alike.needsService]

theorem stepPercent : stepPercent e = stepPercent d := by
  unfold Ramp.stepPercent
  rw [alike.needsService]

theorem risen {k : Nat} (risen : Risen d k r) : Risen e k r := by
  refine ⟨risen.waiting, risen.short, ?_, ?_⟩
  · rw [stride, alike.stepPercent, alike.desired]
    exact risen.count
  · rw [passesBefore, alike.stepPercent, alike.needsService]
    exact risen.traffic

end Alike

/-- What a descriptor asks for depends on its specification and the count it has. -/
theorem alike_of_count {e : Descriptor} (spec : e.spec = d.spec)
    (count : e.status.numDesired = d.status.numDesired) : Alike d e := by
  refine ⟨spec, ?_⟩
  unfold Object.desiredInstances
  rw [spec, count]

/-- A rollout whose release at `c`, the newest that is not bad, has climbed for `k` passes; the
last of them was at `last`. -/
structure Climbing (d : Descriptor) (c : Nat) (name : String) (k last : Nat) (s : Rollout) :
    Prop where
  alike : Alike d s.descriptor
  stamped : s.descriptor.status.deployUpdatedAt ≤ last
  routed : Routed s.releases
  sane : ∀ x ∈ s.releases, x.status.state ≠ .failed
  climber : ∃ r, Foremost s.releases c r ∧ r.name = name ∧ Risen d k r

/-- A rollout whose release at `c`, the newest that is not bad, is active with all traffic, and
nothing is the target. -/
structure Arrived (c : Nat) (name : String) (s : Rollout) : Prop where
  active : activeIndex s.releases = some c
  target : targetIndex s.releases = some c
  sane : ∀ x ∈ s.releases, x.status.state ≠ .failed
  leader : ∃ r, Foremost s.releases c r ∧ r.name = name ∧ r.spec.role = .active ∧
    r.spec.traffic = 100

section Observe

variable (x : Round)

theorem map_face_observe (rs : List Release) : (x.observe rs).map face = rs.map face := by
  apply List.ext_getElem?
  intro i
  simp only [Round.observe, List.getElem?_map, List.getElem?_mapIdx, Option.map_map]
  rfl

theorem activeIndex_observe (rs : List Release) : activeIndex (x.observe rs) = activeIndex rs :=
  findIdx?_eq_of_faces (map_face_observe x rs) _

theorem targetIndex_observe (rs : List Release) : targetIndex (x.observe rs) = targetIndex rs := by
  unfold targetIndex
  rw [activeIndex_observe, findIdx?_eq_of_faces (map_face_observe x rs)]

theorem foremost_observe (foremost : Foremost rs c r) :
    Foremost (x.observe rs) c (x.seen c r) :=
  foremost.mapIdx (fun _ _ => ⟨rfl, rfl, rfl⟩) fun _ _ _ => Iff.rfl

theorem sane_observe (healthy : x.Healthy) (sane : ∀ o ∈ rs, o.status.state ≠ .failed) :
    ∀ o ∈ x.observe rs, o.status.state ≠ .failed := by
  intro o member
  obtain ⟨i, inside, rfl⟩ := List.mem_mapIdx.1 member
  exact healthy i _ (sane _ (List.getElem_mem inside))

end Observe

/-- **One round of a climb.**  The release climbs on, or it is promoted with at least the
desired count. -/
theorem Climbing.round {s : Rollout} {x : Round} {name : String} {k last : Nat}
    (climbing : Climbing d c name k last s) (fits : d.desiredInstances ≤ maxCount)
    (positive : 0 < d.desiredInstances) (early : k < passesNeeded d) (healthy : x.Healthy)
    (spaced : last + d.readinessTimeout ≤ x.now) :
    Climbing d c name (k + 1) x.now (s.round x) ∨
      Arrived c name (s.round x) ∧ ∃ r, (s.round x).releases[c]? = some r ∧
        d.desiredInstances ≤ r.spec.numDesired := by
  obtain ⟨alike, stamped, routed, sane, r, foremost, named, risen⟩ := climbing
  replace routed := routed.of_faces (map_face_observe x s.releases)
  replace sane := sane_observe x healthy sane
  replace foremost := foremost_observe x foremost
  have rested : ¬ x.now - s.descriptor.status.deployUpdatedAt < s.descriptor.readinessTimeout := by
    rw [alike.readinessTimeout]
    omega
  have free : hold? s.descriptor (x.observe s.releases) x.now = none := by
    simp [hold?, rested]
  obtain ⟨p, planned, made, stepped⟩ := exists_planned foremost sane free
  have sound := planOf?_sound planned
  have leader := foremost_spread foremost planned s.descriptor.desiredInstances
    s.descriptor.readinessTimeout x.now
  have sane' := sane_spread sane p s.descriptor.desiredInstances s.descriptor.readinessTimeout x.now
  have risen : Risen s.descriptor k (x.seen c r) :=
    alike.risen ⟨risen.waiting, risen.short, risen.count, risen.traffic⟩
  obtain ⟨promotes, climbs⟩ := risen.pass rfl (alike.desired ▸ fits) (alike.desired ▸ positive)
    (alike.passesNeeded ▸ early) foremost routed planned made leader.here
  have next : s.round x = _ := stepped
  rw [next]
  by_cases whole : p.traffic = 100
  · right
    obtain ⟨active, traffic, count⟩ := promotes whole
    have one : p.active = c := (sound.whole_iff.2 whole).trans made.target_eq
    exact ⟨⟨one ▸ activeIndex_spread sound, made.target_eq ▸ targetIndex_spread sound, sane', _,
      leader, (coeval_assign ..).name.trans named, active, traffic⟩, _, leader.here,
      alike.desired ▸ count⟩
  · left
    have ne : p.active ≠ p.target := mt sound.whole_iff.1 whole
    have step : Alike s.descriptor
        (p.carryOut s.descriptor (x.observe s.releases) x.now).descriptor :=
      alike_of_count rfl (numDesired_carryOut ne)
    refine ⟨⟨alike.spec, step.desired.trans alike.desired⟩, ?_, (balanced_spread sound).toRouted,
      sane', _, leader, (coeval_assign ..).name.trans named, ?_⟩
    · rw [deployUpdatedAt_carryOut]
      split <;> omega
    · exact Alike.risen ⟨alike.spec.symm, alike.desired.symm⟩ (climbs whole)

/-! ## Rounds after the promotion -/

/-- A release that is active and the newest that is not bad stays the active one. -/
theorem Arrived.round {s : Rollout} {x : Round} {name : String} (arrived : Arrived c name s)
    (healthy : x.Healthy) : Arrived c name (s.round x) := by
  obtain ⟨active, target, sane, r, foremost, named, -, -⟩ := arrived
  rw [← activeIndex_observe x] at active
  rw [← targetIndex_observe x] at target
  replace sane := sane_observe x healthy sane
  replace foremost := foremost_observe x foremost
  have unopposed : Unopposed (x.observe s.releases) c :=
    ⟨active, target, foremost.firstDeployable_eq sane⟩
  obtain ⟨p, planned, -, stepped⟩ := exists_planned foremost sane unopposed.hold?_eq
  obtain rfl := Option.some.inj ((unopposed.planOf?_eq foremost.here).symm.trans planned)
  have sound := planOf?_sound planned
  have leader := foremost_spread foremost planned s.descriptor.desiredInstances
    s.descriptor.readinessTimeout x.now
  have next : s.round x = _ := stepped
  rw [next]
  refine ⟨activeIndex_spread sound, targetIndex_spread sound, sane_spread sane _ _ _ _,
    _, leader, (coeval_assign ..).name.trans named, (active_spread_iff leader.here).2 rfl, ?_⟩
  rw [mark_spec, traffic_assign]
  simp [Plan.share, Plan.keep]

theorem Arrived.rounds {s : Rollout} {name : String} (arrived : Arrived c name s)
    (xs : List Round) (healthy : ∀ x ∈ xs, x.Healthy) : Arrived c name (s.rounds xs) := by
  induction xs generalizing s with
  | nil => exact arrived
  | cons x rest ih =>
      obtain ⟨first, later⟩ := List.forall_mem_cons.1 healthy
      exact ih (arrived.round first) later

/-- **A climb ends.**  Some round promotes the release; it was not active before, and it stays
active. -/
theorem Climbing.rounds {s : Rollout} {name : String} {k last : Nat} {xs : List Round}
    (climbing : Climbing d c name k last s) (fits : d.desiredInstances ≤ maxCount)
    (positive : 0 < d.desiredInstances) (healthy : ∀ x ∈ xs, x.Healthy)
    (spaced : (last :: xs.map (·.now)).IsChain (· + d.readinessTimeout ≤ ·))
    (bound : k ≤ passesNeeded d) (enough : passesNeeded d ≤ k + xs.length) :
    ∃ j, k + j < passesNeeded d ∧
      (∀ i ≤ j, ∃ r, (s.rounds (xs.take i)).releases[c]? = some r ∧ r.spec.role ≠ .active) ∧
      (∃ r, (s.rounds (xs.take (j + 1))).releases[c]? = some r ∧
        d.desiredInstances ≤ r.spec.numDesired) ∧
      ∀ i, j < i → Arrived c name (s.rounds (xs.take i)) := by
  induction xs generalizing s k last with
  | nil =>
      obtain ⟨r, -, -, risen⟩ := climbing.climber
      have := risen.lt bound
      simp at enough
      omega
  | cons x rest ih =>
      obtain ⟨r, foremost, -, risen⟩ := climbing.climber
      have early := risen.lt bound
      obtain ⟨first, later⟩ := List.forall_mem_cons.1 healthy
      have spaced : last + d.readinessTimeout ≤ x.now ∧
          (x.now :: rest.map (·.now)).IsChain (· + d.readinessTimeout ≤ ·) := by
        simpa using spaced
      have here : ∃ r, (s.rounds ((x :: rest).take 0)).releases[c]? = some r ∧
          r.spec.role ≠ .active := ⟨r, foremost.here, risen.waiting⟩
      rcases climbing.round fits positive early first spaced.1 with climbs | ⟨arrived, count⟩
      · obtain ⟨j, within, before, promoted, after⟩ :=
          ih climbs later spaced.2 early (by simp at enough; omega)
        refine ⟨j + 1, by omega, ?_, promoted, ?_⟩
        · intro i le
          cases i with
          | zero => exact here
          | succ i => exact before i (by omega)
        · intro i lt
          cases i with
          | zero => omega
          | succ i => exact after i (by omega)
      · refine ⟨0, early, ?_, count, ?_⟩
        · intro i le
          obtain rfl : i = 0 := Nat.le_zero.1 le
          exact here
        · intro i lt
          cases i with
          | zero => omega
          | succ i =>
              exact arrived.rounds (rest.take i) fun y member =>
                later y (List.mem_of_mem_take member)

/-- **A healthy rollout completes, at every scale.**  Let instances be wanted, the split be
routed with its target short of all traffic, no release have failed, and the newest release
that is not bad not be active.  With every instance available before each pass, and passes a
readiness timeout apart, one of the first eight passes promotes that release, or of the first
two without ports.  It has the desired count then, and all traffic then and after every later
pass. -/
theorem healthy_rollout_completes {s : Rollout} {xs : List Round}
    (positive : 0 < s.descriptor.desiredInstances)
    (fits : s.descriptor.desiredInstances ≤ maxCount) (routed : Routed s.releases)
    (below : ∀ o ∈ s.releases, o.spec.role = .target → o.spec.traffic < 100)
    (sane : ∀ o ∈ s.releases, o.status.state ≠ .failed) (foremost : Foremost s.releases c r)
    (waiting : r.spec.role ≠ .active) (healthy : ∀ x ∈ xs, x.Healthy)
    (spaced : (s.descriptor.status.deployUpdatedAt :: xs.map (·.now)).IsChain
      (· + s.descriptor.readinessTimeout ≤ ·))
    (enough : (if s.descriptor.needsService then 8 else 2) ≤ xs.length) :
    ∃ j < if s.descriptor.needsService then 8 else 2,
      (∀ i ≤ j, ∃ o, (s.rounds (xs.take i)).releases[c]? = some o ∧ o.spec.role ≠ .active) ∧
      ∀ i, j < i → ∃ o, (s.rounds (xs.take i)).releases[c]? = some o ∧ o.name = r.name ∧
        o.spec.role = .active ∧ o.spec.traffic = 100 ∧
        (i = j + 1 → s.descriptor.desiredInstances ≤ o.spec.numDesired) := by
  have short : r.spec.traffic < 100 := by
    have member := List.mem_of_getElem? foremost.here
    by_cases target : r.spec.role = .target
    · exact below r member target
    · rw [routed.idle r member waiting target]
      exact Nat.succ_pos _
  have start : Climbing s.descriptor c r.name 0 s.descriptor.status.deployUpdatedAt s :=
    ⟨⟨rfl, rfl⟩, Nat.le_refl _, routed, sane, r, foremost, rfl, waiting, short, by omega, by simp⟩
  obtain ⟨j, within, before, ⟨promoted, promotedAt, count⟩, after⟩ :=
    start.rounds fits positive healthy spaced (Nat.zero_le _) (by rw [Nat.zero_add]; exact enough)
  refine ⟨j, by rwa [Nat.zero_add] at within, before, ?_⟩
  intro i lt
  obtain ⟨o, leader, named, active, whole⟩ := (after i lt).leader
  refine ⟨o, leader.here, named, active, whole, ?_⟩
  rintro rfl
  cases leader.here.symm.trans promotedAt
  exact count

namespace Sample

open Cutover.Sample

/-- A release has been cut beside the active one, and seven instances are wanted. -/
def promising : Rollout :=
  ⟨descriptor 7, [release "web-2" 20 .none 0 0, release "web-1" 10 .active 100 7]⟩

/-- Eight passes a minute apart, over statuses that change in nothing but what is available. -/
def minutes : List Round := (List.range 8).map fun i => ⟨60 * (i + 1), fun _ r => r.status⟩

theorem seven_instances_complete :
    0 < promising.descriptor.desiredInstances ∧
      promising.descriptor.desiredInstances ≤ maxCount ∧ Routed promising.releases ∧
      (∀ o ∈ promising.releases, o.spec.role = .target → o.spec.traffic < 100) ∧
      (∀ o ∈ promising.releases, o.status.state ≠ .failed) ∧
      Foremost promising.releases 0 (release "web-2" 20 .none 0 0) ∧
      (∀ x ∈ minutes, x.Healthy) ∧
      (promising.descriptor.status.deployUpdatedAt :: minutes.map (·.now)).IsChain
        (· + promising.descriptor.readinessTimeout ≤ ·) ∧
      ∃ o, (promising.rounds minutes).releases[0]? = some o ∧ o.name = "web-2" ∧
        o.spec.role = .active ∧ o.spec.traffic = 100 := by
  have positive : 0 < promising.descriptor.desiredInstances := by decide
  have fits : promising.descriptor.desiredInstances ≤ maxCount := by decide
  have routed : Routed promising.releases := by decide
  have below : ∀ o ∈ promising.releases, o.spec.role = .target → o.spec.traffic < 100 := by decide
  have sane : ∀ o ∈ promising.releases, o.status.state ≠ .failed := by decide
  have foremost : Foremost promising.releases 0 (release "web-2" 20 .none 0 0) := by decide
  have healthy : ∀ x ∈ minutes, x.Healthy := by
    intro x member
    obtain ⟨i, -, rfl⟩ := List.mem_map.1 member
    intro _ _ sane
    exact sane
  have spaced : (promising.descriptor.status.deployUpdatedAt :: minutes.map (·.now)).IsChain
      (· + promising.descriptor.readinessTimeout ≤ ·) := by decide
  refine ⟨positive, fits, routed, below, sane, foremost, healthy, spaced, ?_⟩
  obtain ⟨j, within, -, after⟩ := healthy_rollout_completes positive fits routed below sane foremost
    (by decide) healthy spaced (by decide)
  obtain ⟨o, at_, named, active, whole, -⟩ := after 8 within
  exact ⟨o, at_, named, active, whole⟩

/-- Seven passes are not enough for seven instances. -/
example : ((promising.rounds (minutes.take 7)).releases[0]?.map (·.spec.role)) = some .target := by
  decide

end Sample

end Ramp
end Cutover
