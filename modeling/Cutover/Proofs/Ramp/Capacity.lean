/-
# Cutover.Proofs.Ramp.Capacity -- counts against traffic

Two questions about the counts of one pass with instances wanted.

Does the active release keep instances for its traffic?  Its count follows the traffic
it had before the pass, so it does wherever its traffic does not rise
(`active_count_covers_traffic`).  It rises where a target that has traffic is replaced
by another target: then the count stays at the old share
(`active_count_short_of_traffic`).

Does a serving release keep any instance in the pass that takes its traffic?  The pass
drains by the time of the last change of *state*, which says nothing about traffic.  So
it cuts off exactly those that were not active and whose state is older than a readiness
timeout (`serving_release_cut_off_iff`, `superseded_target_cut_off`).
-/
import Cutover.Proofs.Ramp.Balance

namespace Cutover.Ramp

set_option autoImplicit false

variable {d : Descriptor} {rs : List Release} {now : Nat} {p : Plan}

/-! ## Counts and shares -/

theorem activeCount_pos {desired traffic : Nat} (positive : 0 < desired) (serving : 0 < traffic) :
    0 < activeCount desired traffic := by
  unfold activeCount
  simp only
  split
  · exact Nat.one_pos
  · rename_i h
    have : ¬ percentOf desired traffic < 1 := by
      simpa [positive, Nat.pos_iff_ne_zero.1 serving] using h
    omega

theorem activeCount_eq {desired traffic : Nat} (fits : desired ≤ maxCount)
    (positive : 0 < desired) (le : traffic ≤ 100) :
    activeCount desired traffic = max (desired * traffic / 100) (min traffic 1) := by
  have bounded : desired * traffic / 100 ≤ desired := by
    have := Nat.mul_le_mul_left desired le
    omega
  have exact_ : percentOf desired traffic = desired * traffic / 100 :=
    Nat.min_eq_left (Nat.le_trans bounded fits)
  unfold activeCount
  simp only [exact_]
  split
  · rename_i h
    have : desired * traffic / 100 < 1 ∧ traffic ≠ 0 := by simpa [positive] using h
    omega
  · rename_i h
    have : desired * traffic / 100 < 1 → traffic = 0 := by simpa [positive] using h
    omega

/-- A count by the traffic before covers any traffic up to it. -/
theorem le_activeCount {desired before after : Nat} (fits : desired ≤ maxCount)
    (positive : 0 < desired) (le : after ≤ before) (whole : before ≤ 100) :
    desired * after / 100 ≤ activeCount desired before := by
  have mono : desired * after / 100 ≤ desired * before / 100 :=
    Nat.div_le_div_right (Nat.mul_le_mul_left desired le)
  rw [activeCount_eq fits positive whole]
  omega

theorem raisedCount_pos {available : Nat} (positive : 0 < d.desiredInstances) :
    0 < raisedCount d d.desiredInstances available := by
  have : 1 ≤ max (percentOf d.desiredInstances (stepPercent d)) 1 := Nat.le_max_right _ _
  unfold raisedCount
  omega

theorem le_targetTraffic {desired available previous : Nat} (le : previous ≤ 100) :
    previous ≤ targetTraffic d desired available previous := by
  unfold targetTraffic
  omega

/-- A target that was short of all traffic gets it only with every instance available. -/
theorem available_of_whole {desired available previous : Nat} (positive : 0 < desired)
    (short : previous < 100) (whole : targetTraffic d desired available previous = 100) :
    desired ≤ available := by
  have share : 100 ≤ sharePercent (min available desired) desired := by
    unfold targetTraffic at whole
    omega
  have ne : desired ≠ 0 := Nat.pos_iff_ne_zero.1 positive
  rw [sharePercent, if_neg ne] at share
  have := (Nat.le_div_iff_mul_le positive).1 (Nat.le_trans share (Nat.min_le_left _ _))
  omega

theorem raisedCount_of_available {available : Nat} (all : d.desiredInstances ≤ available) :
    raisedCount d d.desiredInstances available = d.desiredInstances := by
  unfold raisedCount
  omega

/-! ## Traffic before the pass -/

theorem index_unique {α : Type} {q : α → Bool} {l : List α} (one : l.countP q ≤ 1) {i j : Nat}
    {x y : α} (hi : l[i]? = some x) (hj : l[j]? = some y) (qx : q x = true) (qy : q y = true) :
    i = j := by
  induction l generalizing i j with
  | nil => simp at hi
  | cons z rest ih =>
      have others (k : Nat) (w : α) (hk : rest[k]? = some w) (qw : q w = true)
          (qz : q z = true) : False := by
        have := List.countP_pos_iff.2 ⟨w, List.mem_of_getElem? hk, qw⟩
        rw [List.countP_cons_of_pos qz] at one
        omega
      cases i with
      | zero =>
          cases j with
          | zero => rfl
          | succ j =>
              cases hi
              exact (others j y hj qy qx).elim
      | succ i =>
          cases j with
          | zero =>
              cases hj
              exact (others i x hi qx qy).elim
          | succ j =>
              have fewer : rest.countP q ≤ 1 :=
                Nat.le_trans ((List.sublist_cons_self z rest).countP_le (p := q)) one
              rw [ih fewer hi hj]

/-- A role that one release has at most has that release's traffic. -/
theorem trafficOf_eq {role : ReleaseRole} (one : rs.countP (·.spec.role = role) ≤ 1) {r : Release}
    (member : r ∈ rs) (has : r.spec.role = role) : trafficOf role rs = r.spec.traffic := by
  have inside : r ∈ rs.filter (·.spec.role = role) := List.mem_filter.2 ⟨member, by simpa using has⟩
  have length : (rs.filter (·.spec.role = role)).length ≤ 1 := by
    rwa [← List.countP_eq_length_filter]
  unfold trafficOf
  match found : rs.filter (·.spec.role = role) with
  | [] => simp [found] at inside
  | [x] =>
      have : r = x := by simpa [found] using inside
      simp [found, this]
  | x :: y :: rest => simp [found] at length

theorem trafficOf_eq_zero {role : ReleaseRole}
    (none : ∀ r ∈ rs, r.spec.role = role → r.spec.traffic = 0) : trafficOf role rs = 0 := by
  refine List.sum_eq_zero_iff_forall_eq_nat.2 fun x member => ?_
  obtain ⟨r, inside, rfl⟩ := List.mem_map.1 member
  obtain ⟨inRs, has⟩ := List.mem_filter.1 inside
  exact none r inRs (by simpa using has)

/-! ## The active release after the pass -/

/-- A target that has traffic is replaced by another target. -/
def Supersedes (rs rs' : List Release) : Prop :=
  ∃ (i j : Nat) (r r' : Release), i ≠ j ∧ rs[i]? = some r ∧ r.spec.role = .target ∧
    0 < r.spec.traffic ∧ rs'[j]? = some r' ∧ r'.spec.role = .target

section Routed

variable (routed : Routed rs)

include routed in
theorem Routed.exists_active : ∃ a r, activeIndex rs = some a ∧ rs[a]? = some r ∧
    r.spec.role = .active := by
  have : 0 < rs.countP (·.spec.role = .active) := by rw [routed.one_active]; exact Nat.one_pos
  obtain ⟨x, member, active⟩ := List.countP_pos_iff.1 this
  obtain ⟨i, at_⟩ := List.getElem?_of_mem member
  obtain ⟨a, found⟩ := Option.isSome_iff_exists.1 (activeIndex_isSome at_ (by simpa using active))
  obtain ⟨r, at', active⟩ := activeIndex_spec found
  exact ⟨a, r, found, at', active⟩

/-- With an active release there is always a candidate. -/
theorem Routed.moves (routed : Routed rs) (free : hold? d rs now = none) : Moves d rs now := by
  obtain ⟨a, r, -, at_, active⟩ := routed.exists_active
  exact ⟨free, Release.firstDeployable_isSome at_ (Release.isDeployable_of_active active)⟩

include routed in
theorem Routed.traffic_le_of_active {r : Release} (member : r ∈ rs)
    (active : r.spec.role = .active) : r.spec.traffic ≤ 100 := by
  have whole := routed.whole
  rw [trafficOf_eq (Nat.le_of_eq routed.one_active) member active] at whole
  omega

include routed in
/-- The traffic of an active release, where no other release with traffic is replaced as
target, is what the candidate lacks. -/
theorem Routed.traffic_active {a c : Nat} {active candidate : Release}
    (activeAt : rs[a]? = some active) (isActive : active.spec.role = .active)
    (candidateAt : rs[c]? = some candidate) (ne : a ≠ c)
    (alone : ∀ i r, rs[i]? = some r → r.spec.role = .target → i ≠ c → r.spec.traffic = 0) :
    active.spec.traffic + candidate.spec.traffic = 100 := by
  have whole := routed.whole
  have activeMember := List.mem_of_getElem? activeAt
  have candidateMember := List.mem_of_getElem? candidateAt
  have notActive : candidate.spec.role ≠ .active := fun h =>
    ne (index_unique (Nat.le_of_eq routed.one_active) activeAt candidateAt (by simpa using isActive)
      (by simpa using h))
  rw [trafficOf_eq (Nat.le_of_eq routed.one_active) activeMember isActive] at whole
  by_cases target : candidate.spec.role = .target
  · rwa [trafficOf_eq routed.one_target candidateMember target] at whole
  · have none : trafficOf .target rs = 0 := trafficOf_eq_zero fun r member isTarget => by
      obtain ⟨i, at_⟩ := List.getElem?_of_mem member
      refine alone i r at_ isTarget fun e => target ?_
      subst e
      cases at_.symm.trans candidateAt
      exact isTarget
    rw [none] at whole
    rw [routed.idle candidate candidateMember notActive target]
    exact whole

end Routed

theorem not_supersedes_of_whole {desired timeout : Nat} (same : p.active = p.target) :
    ¬ Supersedes rs (p.spread desired timeout now rs) := by
  rintro ⟨i, j, r, r', -, -, -, -, at_, target⟩
  exact ((target_spread_iff at_).1 target).2 same.symm

/-- A promotion that goes on replaces every other target that has traffic. -/
theorem supersedes_of_promotion {desired timeout i : Nat} {old candidate : Release}
    (ne : p.target ≠ p.active) (candidateAt : rs[p.target]? = some candidate)
    (at_ : rs[i]? = some old) (target : old.spec.role = .target) (serving : 0 < old.spec.traffic)
    (other : i ≠ p.target) : Supersedes rs (p.spread desired timeout now rs) := by
  have after : (p.spread desired timeout now rs)[p.target]? =
      some (p.mark p.target (p.assign desired timeout now p.target candidate)) :=
    getElem?_spread candidateAt
  exact ⟨i, p.target, old, _, other, at_, target, serving, after,
    (target_spread_iff after).2 ⟨rfl, ne⟩⟩

/-- A step of a promotion that does not end it: the active release keeps its part, and
has instances for it unless a target with traffic was replaced. -/
theorem count_of_giving_way (fits : d.desiredInstances ≤ maxCount)
    (positive : 0 < d.desiredInstances) (routed : Routed rs) {a c : Nat}
    {active candidate : Release} (activeAt : rs[a]? = some active)
    (isActive : active.spec.role = .active)
    (candidateAt : rs[c]? = some candidate) (ne : a ≠ c) {traffic : Nat}
    (given : traffic =
      targetTraffic d d.desiredInstances candidate.status.numAvailable candidate.spec.traffic)
    (alone : ∀ i r, rs[i]? = some r → r.spec.role = .target → i ≠ c → r.spec.traffic = 0) :
    d.desiredInstances * (100 - traffic) / 100 ≤
      activeCount d.desiredInstances active.spec.traffic := by
  have whole := routed.traffic_active activeAt isActive candidateAt ne alone
  have kept : candidate.spec.traffic ≤ traffic := given ▸ le_targetTraffic (by omega)
  exact le_activeCount fits positive (by omega) (by omega)

/-- A step that ends a promotion: a candidate that was short of all traffic gets it with
every instance available, and so with the full count. -/
theorem raisedCount_of_promoted (positive : 0 < d.desiredInstances) (routed : Routed rs)
    {a c : Nat} {active candidate : Release} (activeAt : rs[a]? = some active)
    (isActive : active.spec.role = .active) (candidateAt : rs[c]? = some candidate) (ne : a ≠ c)
    (short : candidate.spec.role = .target → candidate.spec.traffic < 100)
    (whole : targetTraffic d d.desiredInstances candidate.status.numAvailable
      candidate.spec.traffic = 100) :
    raisedCount d d.desiredInstances candidate.status.numAvailable = d.desiredInstances := by
  have notActive : candidate.spec.role ≠ .active := fun h =>
    ne (index_unique (Nat.le_of_eq routed.one_active) activeAt candidateAt (by simpa using isActive)
      (by simpa using h))
  have lacking : candidate.spec.traffic < 100 := by
    by_cases target : candidate.spec.role = .target
    · exact short target
    · rw [routed.idle candidate (List.mem_of_getElem? candidateAt) notActive target]
      exact Nat.succ_pos _
  exact raisedCount_of_available (available_of_whole positive lacking whole)

/-- **Capacity follows traffic.**  After a pass past the cooldown the count of the active
release covers its traffic, whether the promotion goes on, ends, begins or is given up;
only a release promoted with all traffic already on it may be short.  Where a target with
traffic is replaced by another, the active release is the one from before and its count
is that for the traffic it had before the pass, at least one if it had any. -/
theorem active_count_covers_traffic (fits : d.desiredInstances ≤ maxCount)
    (positive : 0 < d.desiredInstances) (routed : Routed rs) (free : hold? d rs now = none) :
    ∃ result i before after, pass d rs now = .ok result ∧
      activeIndex result.releases = some i ∧ rs[i]? = some before ∧
      result.releases[i]? = some after ∧
      (¬ Supersedes rs result.releases →
        (before.spec.role = .target → before.spec.traffic < 100) →
        d.desiredInstances * after.spec.traffic / 100 ≤ after.spec.numDesired) ∧
      (Supersedes rs result.releases → before.spec.role = .active ∧
        after.spec.numDesired =
          max (d.desiredInstances * before.spec.traffic / 100) (min before.spec.traffic 1)) := by
  obtain ⟨p, planned, passed⟩ := (routed.moves free).exists_plan
  have sound := planOf?_sound planned
  have releases : (p.carryOut d rs now).releases =
      p.spread d.desiredInstances d.readinessTimeout now rs := releases_carryOut sound
  obtain ⟨c, r, -, at_, -, made⟩ := planOf?_made planned
  obtain ⟨before, beforeAt⟩ : ∃ before, rs[p.active]? = some before :=
    ⟨_, List.getElem?_eq_getElem sound.active_lt⟩
  have afterAt : (p.carryOut d rs now).releases[p.active]? =
      some (p.mark p.active
        (p.assign d.desiredInstances d.readinessTimeout now p.active before)) := by
    rw [releases, spread_getElem?, beforeAt]
    rfl
  refine ⟨_, p.active, before, _, passed, releases ▸ activeIndex_spread sound, beforeAt, afterAt,
    ?_⟩
  rw [releases, mark_spec, traffic_assign, numDesired_assign]
  cases made with
  | stopped zero => omega
  | steady _ own =>
      refine ⟨fun _ _ => ?_, fun h => absurd h (not_supersedes_of_whole rfl)⟩
      simp [Plan.share]
  | @ramping a _ active ne traffic raised given raise =>
      obtain ⟨old, oldAt, isActive⟩ := activeIndex_spec active
      by_cases whole : traffic = 100
      · subst whole
        refine ⟨fun _ short => ?_, fun h => absurd h (not_supersedes_of_whole rfl)⟩
        obtain rfl : r = before := Option.some.inj (at_.symm.trans beforeAt)
        have count : raised = d.desiredInstances :=
          raise.trans (raisedCount_of_promoted positive routed oldAt isActive at_ ne short
            given.symm)
        simp only [Plan.share, if_true, count]
        omega
      · simp only [if_neg whole] at beforeAt ⊢
        obtain rfl : old = before := Option.some.inj (oldAt.symm.trans beforeAt)
        simp only [Plan.share, if_neg ne, if_true]
        refine ⟨fun kept _ => ?_, fun _ => ⟨isActive, ?_⟩⟩
        · refine count_of_giving_way fits positive routed oldAt isActive at_ ne given ?_
          intro i t targetAt isTarget other
          by_contra serving
          exact kept (supersedes_of_promotion (Ne.symm ne) at_ targetAt isTarget
            (Nat.pos_of_ne_zero serving) other)
        · exact activeCount_eq fits positive
            (routed.traffic_le_of_active (List.mem_of_getElem? oldAt) isActive)

namespace Sample

open Cutover.Sample

/-- A newer release appears while the target has half of the traffic. -/
def superseded : List Release :=
  [release "web-3" 30 .none 0 0, release "web-2" 20 .target 50 2, release "web-1" 10 .active 50 2]

/-- The target has all traffic and one instance of four, and is not yet active. -/
def outgrown : List Release := [release "web-2" 20 .target 100 1, release "web-1" 10 .active 0 0]

theorem covered_when_superseded :
    (descriptor 4).desiredInstances ≤ maxCount ∧ 0 < (descriptor 4).desiredInstances ∧
      Routed superseded ∧ hold? (descriptor 4) superseded 1000 = none ∧
      ∃ result after, pass (descriptor 4) superseded 1000 = .ok result ∧
        result.releases[2]? = some after ∧ after.spec.traffic = 100 ∧
        after.spec.numDesired = 2 := by
  have routed : Routed superseded := by decide
  have free : hold? (descriptor 4) superseded 1000 = none := by decide
  obtain ⟨result, i, before, after, passed, active, at_, at', -, gives⟩ :=
    active_count_covers_traffic (d := descriptor 4) (by decide) (by decide) routed free
  cases (show pass (descriptor 4) superseded 1000 = .ok _ from rfl).symm.trans passed
  obtain rfl : 2 = i := Option.some.inj ((show _ = some 2 by decide).symm.trans active)
  refine ⟨by decide, by decide, routed, free, _, after, rfl, at', ?_, ?_⟩
  · cases at'
    rfl
  · cases at_
    exact (gives ⟨1, 0, _, _, by decide, rfl, rfl, by decide, rfl, rfl⟩).2

end Sample

/-- The active release is left with two instances of four for all traffic, when a newer
release supersedes the target; one promoted with all traffic on it is left with one. -/
theorem active_count_short_of_traffic :
    (Routed Sample.superseded ∧
      ∃ result after, pass (Sample.descriptor 4) Sample.superseded 1000 = .ok result ∧
        activeIndex result.releases = some 2 ∧ result.releases[2]? = some after ∧
        after.spec.numDesired < 4 * after.spec.traffic / 100) ∧
    Routed Sample.outgrown ∧
      ∃ result after, pass (Sample.descriptor 4) Sample.outgrown 1000 = .ok result ∧
        activeIndex result.releases = some 0 ∧ result.releases[0]? = some after ∧
        after.spec.numDesired < 4 * after.spec.traffic / 100 :=
  ⟨⟨by decide, _, _, rfl, rfl, rfl, by decide⟩, by decide, _, _, rfl, rfl, rfl, by decide⟩

/-! ## Releases that are cut off -/

theorem Plan.Made.count_pos {c : Nat} {r : Release} (made : Plan.Made d rs c r p)
    (positive : 0 < d.desiredInstances) : 0 < p.count := by
  cases made with
  | stopped zero => omega
  | steady _ own => exact positive
  | @ramping a _ active ne traffic raised given raise =>
      have : 0 < raised := raise ▸ raisedCount_pos positive
      exact Nat.lt_of_lt_of_le this (Nat.le_max_right _ _)

/-- The active release of a plan that is not its target was active before. -/
theorem Plan.Made.active_of_ne {c : Nat} {r old : Release} (made : Plan.Made d rs c r p)
    (ne : p.active ≠ p.target) (at_ : rs[p.active]? = some old) : old.spec.role = .active := by
  cases made with
  | stopped zero => exact absurd rfl ne
  | steady _ own => exact absurd rfl ne
  | @ramping a _ active other traffic raised given raise =>
      obtain ⟨before, beforeAt, isActive⟩ := activeIndex_spec active
      by_cases whole : traffic = 100
      · simp [whole] at ne
      · simp only [if_neg whole] at at_
        cases at_.symm.trans beforeAt
        exact isActive

/-- A plan leaves no instances to those releases with traffic and instances that are not
its target, were not active, and have an old state. -/
theorem Plan.Made.cut_off_iff {c i : Nat} {r before : Release} (made : Plan.Made d rs c r p)
    (positive : 0 < d.desiredInstances) (at_ : rs[i]? = some before)
    (serving : 0 < before.spec.traffic) (running : 0 < before.spec.numDesired)
    (notBad : before.spec.role ≠ .bad) :
    (p.assign d.desiredInstances d.readinessTimeout now i before).spec.numDesired = 0 ↔
      c ≠ i ∧ before.spec.role ≠ .active ∧
        d.readinessTimeout < now - before.status.stateChangedAt := by
  rw [numDesired_assign, made.target_eq]
  split
  · rename_i target
    have := made.count_pos positive
    exact ⟨fun none => by omega, fun h => absurd target.symm h.1⟩
  · rename_i notTarget
    split
    · rename_i active
      subst active
      have isActive := made.active_of_ne (made.target_eq ▸ notTarget) at_
      have := activeCount_pos positive serving
      exact ⟨fun none => by omega, fun h => absurd isActive h.2.1⟩
    · have drained : isDrained d.readinessTimeout now before = true ↔ before.spec.role ≠ .active ∧
          d.readinessTimeout < now - before.status.stateChangedAt := by simp [isDrained]
      rw [← drained]
      split
      · rename_i h
        exact ⟨fun _ => ⟨Ne.symm notTarget, h.resolve_left notBad⟩, fun _ => rfl⟩
      · rename_i h
        exact ⟨fun none => by omega, fun ⟨_, h'⟩ => absurd (.inr h') h⟩

/-- **Which serving releases are cut off.**  With instances wanted, a release that has
traffic and instances and is not bad is left with none exactly by a pass that moves, does
not make it the target, and finds it not active and its state older than a readiness
timeout, however short its traffic has been away. -/
theorem serving_release_cut_off_iff (positive : 0 < d.desiredInstances) {i : Nat}
    {before : Release} (at_ : rs[i]? = some before) (serving : 0 < before.spec.traffic)
    (running : 0 < before.spec.numDesired) (notBad : before.spec.role ≠ .bad) :
    ∃ result after, pass d rs now = .ok result ∧ result.releases[i]? = some after ∧
      (after.spec.numDesired = 0 ↔ Moves d rs now ∧ Release.firstDeployable rs ≠ some i ∧
        before.spec.role ≠ .active ∧
        d.readinessTimeout < now - before.status.stateChangedAt) := by
  by_cases moves : Moves d rs now
  · obtain ⟨p, planned, passed⟩ := moves.exists_plan
    obtain ⟨c, r, first, -, -, made⟩ := planOf?_made planned
    have after : (p.carryOut d rs now).releases[i]? =
        some (p.mark i (p.assign d.desiredInstances d.readinessTimeout now i before)) := by
      rw [releases_carryOut (planOf?_sound planned), spread_getElem?, at_]
      rfl
    refine ⟨_, _, passed, after, ?_⟩
    rw [mark_spec, made.cut_off_iff positive at_ serving running notBad, first]
    simp [moves]
  · have ne : rs ≠ [] := List.ne_nil_of_mem (List.mem_of_getElem? at_)
    obtain ⟨outcome, passed⟩ := pass_of_not_moves ne moves
    exact ⟨_, before, passed, at_, fun none => by omega, fun h => absurd h.1 moves⟩

namespace Sample

open Cutover.Sample

/-- One second decides whether the target that is superseded keeps its instances. -/
theorem superseded_target_kept_then_cut_off :
    0 < (descriptor 4).desiredInstances ∧
    (∃ result after, pass (descriptor 4) superseded 60 = .ok result ∧
      result.releases[1]? = some after ∧ after.spec.numDesired ≠ 0) ∧
    ∃ result after, pass (descriptor 4) superseded 61 = .ok result ∧
      result.releases[1]? = some after ∧ after.spec.numDesired = 0 := by
  have positive : 0 < (descriptor 4).desiredInstances := by decide
  have cut (now : Nat) := @serving_release_cut_off_iff (descriptor 4) superseded now
    positive 1 _ rfl (by decide) (by decide) (by decide)
  obtain ⟨early, kept, passed, at_, keeps⟩ := cut 60
  obtain ⟨late, gone, passed', at', cuts⟩ := cut 61
  refine ⟨positive, ⟨early, kept, passed, at_, fun none => ?_⟩, late, gone, passed', at', ?_⟩
  · exact absurd (keeps.1 none).2.2.2 (by decide)
  · exact cuts.2 ⟨⟨by decide, by decide⟩, by decide, by decide, by decide⟩

end Sample

/-- A target with half of the traffic loses its instances in the pass that takes it. -/
theorem superseded_target_cut_off :
    ∃ before result after, Sample.superseded[1]? = some before ∧ 0 < before.spec.traffic ∧
      0 < before.spec.numDesired ∧ before.spec.role = .target ∧
      pass (Sample.descriptor 4) Sample.superseded 1000 = .ok result ∧
      result.releases[1]? = some after ∧ after.spec.numDesired = 0 :=
  ⟨_, _, _, rfl, by decide, by decide, rfl, rfl, rfl, rfl⟩

end Cutover.Ramp
