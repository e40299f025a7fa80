/-
# Cutover.Proofs.Ramp.Gate -- a promotion waits for available instances

What a target may be given is measured against the instances it has available when a pass
looks.  Its count is raised a step above them at most (`raised_le`).  Its traffic is at most
the share of the desired count that it had available in some pass since it became the target
(`traffic_le_share`): a pass gives no more than the share it sees, or leaves the traffic as
it is, so later losses of instances take none away.  It becomes active only with all desired
instances available (`available_of_made_active`).

The desired count may change from pass to pass, so shares are those of the passes that saw
them.
-/
import Cutover.Proofs.Ramp.Promotion

namespace Cutover.Ramp

set_option autoImplicit false

open Rollout

/-! ## One pass -/

namespace Push

/-- The share of the desired count, in percent, that a pass finds available. -/
def share (x : Push) : Nat :=
  100 * min x.before.status.numAvailable x.visit.desired / x.visit.desired

end Push

/-- The instances that one pass may add to those available: a quarter of the desired count with
ports, all of it without, and at least one. -/
def stepOf (v : Visit) : Nat :=
  max 1 (if v.state.descriptor.needsService then v.desired / 4 else v.desired)

theorem sharePercent_le (part total : Nat) : sharePercent part total ≤ 100 * part / total := by
  unfold sharePercent
  split
  · exact Nat.zero_le _
  · rw [Nat.mul_comm]
    exact Nat.min_le_left _ _

theorem targetTraffic_le_max {d : Descriptor} {desired available previous : Nat} :
    targetTraffic d desired available previous ≤
      max (100 * min available desired / desired) previous := by
  have := sharePercent_le (min available desired) desired
  unfold targetTraffic
  omega

theorem raisedCount_le (v : Visit) (available : Nat) :
    raisedCount v.state.descriptor v.desired available ≤ min v.desired (available + stepOf v) := by
  have percent : percentOf v.desired (stepPercent v.state.descriptor) ≤
      if v.state.descriptor.needsService then v.desired / 4 else v.desired := by
    unfold percentOf stepPercent increment
    split <;> omega
  unfold raisedCount stepOf
  omega

section Visit

variable {v : Visit} {i : Nat} {r r' : Release}

/-- A release that is not active has no count raised beyond a step above what it has available. -/
theorem raised_le (routed : Routed v.state.releases) (positive : 0 < v.desired)
    (at_ : v.state.releases[i]? = some r) (after : v.next.releases[i]? = some r')
    (notActive : r.spec.role ≠ .active) (raised : r.spec.numDesired < r'.spec.numDesired) :
    r'.spec.numDesired ≤ min v.desired (r.status.numAvailable + stepOf v) := by
  rcases v.state.step_pass v.now with same | ⟨-, p, planned, stepped⟩
  · have same : v.next = v.state := same
    rw [same, at_] at after
    cases after
    exact absurd raised (Nat.lt_irrefl _)
  · have next : v.next = _ := stepped
    rw [next] at after
    by_cases target : i = p.target
    · subst target
      have steps := steps_of_target routed planned positive at_ notActive
      have count : r'.spec.numDesired = max r.spec.numDesired
        (raisedCount v.state.descriptor v.desired r.status.numAvailable) := steps.count_eq after
      have := raisedCount_le v r.status.numAvailable
      omega
    · -- Another release that is not active keeps its count or loses it.
      obtain ⟨x, there, rfl⟩ := exists_of_spread_getElem? after
      cases at_.symm.trans there
      have other : i ≠ p.active := by
        rintro rfl
        obtain ⟨c, y, -, -, -, made⟩ := planOf?_made planned
        exact notActive (made.active_of_ne target at_)
      rw [mark_spec, numDesired_assign, if_neg target, if_neg other] at raised
      split at raised <;> omega

/-- A release that a pass makes active, with instances wanted, has all of them available. -/
theorem available_of_made_active (balanced : Balanced v.state.releases) (positive : 0 < v.desired)
    (at_ : v.state.releases[i]? = some r) (after : v.next.releases[i]? = some r')
    (notActive : r.spec.role ≠ .active) (active : r'.spec.role = .active) :
    v.desired ≤ r.status.numAvailable := by
  have member := List.mem_of_getElem? at_
  have short : r.spec.traffic < 100 := by
    by_cases target : r.spec.role = .target
    · exact balanced.below r member target
    · rw [balanced.idle r member notActive target]
      decide
  rcases v.state.step_pass v.now with same | ⟨-, p, planned, stepped⟩
  · have same : v.next = v.state := same
    rw [same, at_] at after
    cases after
    exact absurd active notActive
  · have next : v.next = _ := stepped
    rw [next] at after
    obtain ⟨steps, whole⟩ :=
      steps_of_made_active balanced.toRouted planned positive at_ after notActive active
    exact available_of_whole positive short (steps.traffic.symm.trans whole)

end Visit

/-- A pass that leaves the release as the target leaves its traffic as it was or gives it no
more than the share it sees; a release that was not the target had none to keep. -/
theorem Push.kept_or_seen {x : Push} (routed : Routed x.visit.state.releases) (here : x.Here)
    (target : x.after.spec.role = .target) :
    (x.before.spec.role = .target ∧ x.after.spec.traffic ≤ x.before.spec.traffic) ∨
      (x.visit.Moves ∧ 0 < x.visit.desired ∧ x.after.spec.traffic ≤ x.share) := by
  have unpromoted : x.after.spec.role ≠ .active := by
    rw [target]
    decide
  rcases x.still_or_steps routed here (.inl target) (fun active => absurd active unpromoted) with
    ⟨-, same⟩ | ⟨moves, p, i, steps, at_, -, traffic⟩
  · exact .inl ⟨same ▸ target, by rw [same]⟩
  · have bound : x.after.spec.traffic ≤ max x.share x.before.spec.traffic :=
      traffic.trans_le targetTraffic_le_max
    by_cases was : x.before.spec.role = .target
    · by_cases seen : x.after.spec.traffic ≤ x.share
      · exact .inr ⟨moves, steps.positive, seen⟩
      · exact .inl ⟨was, by omega⟩
    · have none_ : x.before.spec.traffic = 0 :=
        routed.idle _ (List.mem_of_getElem? at_) steps.notActive was
      rw [none_, Nat.max_zero] at bound
      exact .inr ⟨moves, steps.positive, bound⟩

/-! ## A whole promotion -/

/-- Of the passes up to a position, one that moved saw so large a share. -/
def Seen (xs : List Push) (j traffic : Nat) : Prop :=
  ∃ (i : Nat) (x : Push), i ≤ j ∧ xs[i]? = some x ∧ x.visit.Moves ∧ 0 < x.visit.desired ∧
    traffic ≤ x.share

/-- The traffic a target has after a pass was seen as a share, or is what the release had when
the promotion's first pass met it. -/
theorem Promotion.traffic_seen {s : Rollout} {es : List Event} {xs : List Push}
    (balanced : Balanced s.releases) (permits : s.Permits es)
    (promotion : Promotion (s.visits es) xs) {j : Nat} {y : Push} (at_ : xs[j]? = some y)
    (target : y.after.spec.role = .target) :
    Seen xs j y.after.spec.traffic ∨
      ∃ x, xs[0]? = some x ∧ x.before.spec.role = .target ∧
        y.after.spec.traffic ≤ x.before.spec.traffic := by
  have routed (x : Push) (member : x ∈ xs) : Routed x.visit.state.releases :=
    (promotion.balanced balanced permits x member).1.toRouted
  -- A pass that does not see the share itself keeps what the pass before it has given, so that the
  -- question goes back along the promotion to the pass that saw it or to the first one.
  induction j generalizing y with
  | zero =>
      have member := List.mem_of_getElem? at_
      rcases Push.kept_or_seen (routed y member) (promotion.here y member) target with
        ⟨was, kept⟩ | ⟨moves, positive, seen⟩
      · exact .inr ⟨y, at_, was, kept⟩
      · exact .inl ⟨0, y, Nat.le_refl _, at_, moves, positive, seen⟩
  | succ j ih =>
      obtain ⟨lt, rfl⟩ := List.getElem?_eq_some_iff.1 at_
      have member := List.mem_of_getElem? at_
      rcases Push.kept_or_seen (routed _ member) (promotion.here _ member) target with
        ⟨-, kept⟩ | ⟨moves, positive, seen⟩
      · have before : xs[j]? = some xs[j] := List.getElem?_eq_getElem (by omega)
        have handed := List.isChain_iff_getElem.1 promotion.handed j lt
        have same := List.isChain_iff_getElem.1 (promotion.traffic_handed balanced permits) j lt
        rw [same] at kept
        rcases ih before handed.1 with ⟨i, x, le, there, moves, positive, seen⟩ | ⟨x, there, was, had⟩
        · exact .inl ⟨i, x, by omega, there, moves, positive, kept.trans seen⟩
        · exact .inr ⟨x, there, was, kept.trans had⟩
      · exact .inl ⟨j + 1, _, Nat.le_refl _, at_, moves, positive, seen⟩

/-- **A promotion waits for available instances.**  In every run:

* the traffic of a target is at most the largest share of the desired count that a pass found
  available since one of them made it the target, or since the run began with it as the
  target, when it is at most that share or what it had then;
* with instances wanted, a pass raises the count of a release that is not active at most to the
  desired count and to a step above what is available;
* with instances wanted, a pass makes another release active only with all of them available;
* a release that has none available in any pass of its promotion is given no traffic and is not
  made active. -/
theorem promotion_gated_by_availability {s : Rollout} {es : List Event}
    (balanced : Balanced s.releases) (permits : s.Permits es) :
    (∀ (xs : List Push) (j : Nat) (y : Push), Promotion (s.visits es) xs → xs[j]? = some y →
      y.after.spec.role = .target →
      Seen xs j y.after.spec.traffic ∨
        ∃ x, xs[0]? = some x ∧ x.before.spec.role = .target ∧
          y.after.spec.traffic ≤ x.before.spec.traffic) ∧
    (∀ v ∈ s.visits es, 0 < v.desired → ∀ (i : Nat) (r r' : Release),
      v.state.releases[i]? = some r → v.next.releases[i]? = some r' → r.spec.role ≠ .active →
      (r.spec.numDesired < r'.spec.numDesired →
        r'.spec.numDesired ≤ min v.desired (r.status.numAvailable + stepOf v)) ∧
      (r'.spec.role = .active → v.desired ≤ r.status.numAvailable)) ∧
    ∀ xs : List Push, Promotion (s.visits es) xs →
      (∀ x, xs[0]? = some x → x.before.spec.role ≠ .target) →
      (∀ x ∈ xs, x.before.status.numAvailable = 0) →
      ∀ y ∈ xs, 0 < y.visit.desired → y.after.spec.role = .target ∧ y.after.spec.traffic = 0 := by
  have visited := forall_visits (P := fun s => Balanced s.releases) balanced_step
    ((permits_iff_throughout s es).1 permits) balanced
  refine ⟨?_, ?_, ?_⟩
  · intro xs j y promotion at_ target
    exact promotion.traffic_seen balanced permits at_ target
  · intro v member positive i r r' at_ after notActive
    constructor
    · intro raised
      exact raised_le (visited v member).1.toRouted positive at_ after notActive raised
    · intro active
      exact available_of_made_active (visited v member).1 positive at_ after notActive active
  · intro xs promotion begun none_ y member positive
    have target : y.after.spec.role = .target := by
      rcases promotion.pursues y member with target | ⟨was, active⟩
      · exact target
      · obtain ⟨i, at_, after⟩ := promotion.here y member
        have notActive : y.before.spec.role ≠ .active := by
          rw [was]
          decide
        have all := available_of_made_active (promotion.balanced balanced permits y member).1
          positive at_ after notActive active
        rw [none_ y member] at all
        omega
    obtain ⟨j, at_⟩ := List.getElem?_of_mem member
    rcases promotion.traffic_seen balanced permits at_ target with
      ⟨i, x, -, there, -, -, seen⟩ | ⟨x, there, was, -⟩
    · have nothing : x.share = 0 := by
        unfold Push.share
        rw [none_ x (List.mem_of_getElem? there), Nat.zero_min, Nat.mul_zero, Nat.zero_div]
      exact ⟨target, by omega⟩
    · exact absurd was (begun x there)

namespace Sample

open Cutover.Sample

/-- A release becomes the target and climbs to the half of the instances that it has available;
then one of them is lost. -/
def lapse : List Event :=
  [.add (release "web-2" 20 .none 0 0), .pass 100,
    .observe 0 { (default : ReleaseStatus) with numAvailable := 2 }, .pass 160, .pass 220,
    .observe 0 { (default : ReleaseStatus) with numAvailable := 1 }, .pass 280]

/-- What the passes do to the new release. -/
def lapsing : List Push := pushesAt 0 (settled.visits lapse)

/-- The target keeps 50 points with a quarter available, and has seen the half. -/
theorem lapse_keeps_share_seen :
    Balanced settled.releases ∧ settled.Permits lapse ∧ Promotion (settled.visits lapse) lapsing ∧
      lapsing.map (fun x => (x.share, x.after.spec.traffic, x.after.spec.numDesired)) =
        [(0, 0, 1), (50, 25, 3), (50, 50, 3), (25, 50, 3)] ∧
      Seen lapsing 3 50 := by
  have balanced : Balanced settled.releases := by decide
  have permits : settled.Permits lapse :=
    ⟨⟨rfl, rfl, rfl⟩, trivial, trivial, trivial, trivial, trivial, trivial, trivial⟩
  have promotion : Promotion (settled.visits lapse) lapsing :=
    ⟨⟨[], [], rfl⟩, here_of_mem_pushesAt, by decide, by decide⟩
  obtain ⟨seen, -⟩ := promotion_gated_by_availability balanced permits
  refine ⟨balanced, permits, promotion, by decide, ?_⟩
  rcases seen lapsing 3 _ promotion rfl (by decide) with seen | ⟨x, first, was, -⟩
  · exact seen
  · cases first
    cases was

end Sample

end Cutover.Ramp
