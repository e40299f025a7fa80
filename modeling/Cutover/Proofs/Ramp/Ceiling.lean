/-
# Cutover.Proofs.Ramp.Ceiling -- counts against what is wanted

A pass that moves sets the counts of the active and the target release in one of four ways: to
none where nothing is wanted, to what is wanted for a release that has all traffic, to the part
that goes with its traffic for an active release that gives way, and for a target by raising it
towards what is wanted.

The last of these never lowers.  So of the releases that serve after a pass exactly a candidate in
promotion that came with more instances than are wanted keeps more (`Overstaffed`,
`serving_count_within_wanted_iff`).  It may have them from an earlier life, or because less has
been wanted since it got them (`target_above_lowered_scale`).  In a run in which the wanted count
never falls no release ever has more (`within_step`).
-/
import Cutover.Proofs.Ramp.Drain
import Cutover.Proofs.Ramp.Reporting

namespace Cutover

set_option autoImplicit false

namespace Ramp

variable {d : Descriptor} {rs : List Release} {now : Nat} {p : Plan}

/-! ## The counts of a plan -/

/-- The release at a position is a candidate in promotion that comes with more instances than are
wanted. -/
def Overstaffed (d : Descriptor) (rs : List Release) (i : Nat) (r : Release) : Prop :=
  0 < d.desiredInstances ∧ d.desiredInstances < r.spec.numDesired ∧
    Release.firstDeployable rs = some i ∧ ∃ a, activeIndex rs = some a ∧ a ≠ i

theorem activeCount_le {desired traffic : Nat} (le : traffic ≤ 100) :
    activeCount desired traffic ≤ desired := by
  have part : percentOf desired traffic ≤ desired := by
    have := Nat.mul_le_mul_left desired le
    unfold percentOf
    omega
  unfold activeCount
  simp only
  split
  · rename_i h
    have : 0 < desired := by simp_all
    omega
  · exact part

theorem Plan.Made.count_le_iff {c : Nat} {r : Release} (made : Plan.Made d rs c r p)
    (first : Release.firstDeployable rs = some c) :
    p.count ≤ d.desiredInstances ↔ ¬ Overstaffed d rs c r := by
  cases made with
  | stopped zero =>
      refine iff_of_true (Nat.zero_le _) ?_
      rintro ⟨positive, -⟩
      omega
  | steady positive own =>
      refine iff_of_true (Nat.le_refl _) ?_
      rintro ⟨-, -, -, a, active, other⟩
      rcases own with none_ | same
      · cases none_.symm.trans active
      · exact other (Option.some.inj (active.symm.trans same))
  | @ramping a positive active other traffic raised given raise =>
      have le : raised ≤ d.desiredInstances := raise ▸ Nat.min_le_right _ _
      constructor
      · rintro fits ⟨-, more, -⟩
        simp only at fits
        omega
      · intro fits
        have : ¬ d.desiredInstances < r.spec.numDesired := fun more =>
          fits ⟨positive, more, first, a, active, other⟩
        simp only
        omega

/-- The counts of those that serve after a plan. -/
theorem numDesired_of_serving (planned : planOf? d rs = some p) {i : Nat} {r : Release}
    (at_ : rs[i]? = some r)
    (serves : (p.assign d.desiredInstances d.readinessTimeout now i r).spec.role = .active ∨
      (p.assign d.desiredInstances d.readinessTimeout now i r).spec.role = .target) :
    (Release.firstDeployable rs = some i →
      ((p.assign d.desiredInstances d.readinessTimeout now i r).spec.numDesired ≤
        d.desiredInstances ↔ ¬ Overstaffed d rs i r)) ∧
    (Release.firstDeployable rs ≠ some i → r.spec.role = .active ∧
      (p.assign d.desiredInstances d.readinessTimeout now i r).spec.numDesired =
        activeCount d.desiredInstances r.spec.traffic) := by
  obtain ⟨c, x, first, at_c, -, made⟩ := planOf?_made planned
  rw [numDesired_assign, made.target_eq, first]
  by_cases candidate : i = c
  · subst candidate
    obtain rfl : r = x := Option.some.inj (at_.symm.trans at_c)
    rw [if_pos rfl]
    exact ⟨fun _ => made.count_le_iff first, fun ne => absurd rfl ne⟩
  · have ne : some c ≠ some i := fun same => candidate (Option.some.inj same).symm
    refine ⟨fun same => absurd same ne, fun _ => ?_⟩
    -- it serves and is not the target, so it is the active release of a promotion
    have active : i = p.active := by
      rw [role_assign, made.target_eq, if_neg candidate] at serves
      by_contra other
      rw [if_neg other] at serves
      split_ifs at serves with bad <;> simp at serves
    subst active
    rw [if_neg candidate, if_pos rfl]
    exact ⟨made.active_of_ne (made.target_eq ▸ candidate) at_, rfl⟩

end Ramp

/-! ## Runs in which the wanted count does not fall -/

namespace Rollout

open Ramp

variable {s : Rollout} {now : Nat}

/-- No release has more instances than are wanted, or more than all traffic. -/
def Within (s : Rollout) : Prop :=
  ∀ r ∈ s.releases, r.spec.numDesired ≤ s.descriptor.desiredInstances ∧ r.spec.traffic ≤ 100

instance (s : Rollout) : Decidable s.Within :=
  inferInstanceAs (Decidable (∀ r ∈ s.releases,
    r.spec.numDesired ≤ s.descriptor.desiredInstances ∧ r.spec.traffic ≤ 100))

/-- An event after which as much is wanted as before it; a release that is cut fits. -/
def Event.Sustains (s : Rollout) (e : Event) : Prop :=
  e.Allowed s ∧ s.descriptor.desiredInstances ≤ (s.step e).descriptor.desiredInstances ∧
    match e with
    | .add r => r.spec.numDesired ≤ s.descriptor.desiredInstances
    | _ => True

/-- A pass over releases that have no more than is wanted gives none of them more. -/
theorem Within.pass (within : s.Within) (now : Nat) : ∀ r ∈ (s.step (.pass now)).releases,
    r.spec.numDesired ≤ s.descriptor.desiredInstances ∧ r.spec.traffic ≤ 100 := by
  rcases s.releases_step_pass now with same | ⟨p, planned, spread⟩
  · rw [same]
    exact within
  · rw [spread]
    intro r member
    obtain ⟨i, at_⟩ := List.getElem?_of_mem member
    obtain ⟨before, at_before, rfl⟩ := exists_of_spread_getElem? at_
    obtain ⟨fits, share⟩ := within before (List.mem_of_getElem? at_before)
    have sound := planOf?_sound planned
    constructor
    · obtain ⟨c, x, first, at_c, -, made⟩ := planOf?_made planned
      rw [mark_spec, numDesired_assign]
      split_ifs with target active drained
      · refine (made.count_le_iff first).2 fun overstaffed => ?_
        have fits' := (within x (List.mem_of_getElem? at_c)).1
        have more := overstaffed.2.1
        omega
      · exact activeCount_le share
      · exact Nat.zero_le _
      · exact fits
    · have le := sound.traffic_le
      rw [mark_spec, traffic_assign, Plan.share]
      split_ifs <;> omega

/-- What every event that lowers nothing keeps. -/
theorem within_step (s : Rollout) (e : Event) (sustains : e.Sustains s) (within : s.Within) :
    (s.step e).Within := by
  obtain ⟨allowed, rises, fits⟩ := sustains
  -- a release that has the specification of one from before fits as that one did
  have of_spec {r r' : Release} (inside : r ∈ s.releases) (spec : r.spec = r'.spec) :
      r'.spec.numDesired ≤ (s.step e).descriptor.desiredInstances ∧ r'.spec.traffic ≤ 100 :=
    spec ▸ ⟨Nat.le_trans (within r inside).1 rises, (within r inside).2⟩
  intro r' member
  cases e with
  | pass now =>
      obtain ⟨le, share⟩ := within.pass now r' member
      exact ⟨Nat.le_trans le rises, share⟩
  | observe i status =>
      obtain ⟨r, inside, spec⟩ :=
        exists_spec_of_mem_modify (f := fun r => { r with status }) (fun _ => rfl) member
      exact of_spec inside spec
  | describe d => exact of_spec member rfl
  | add new =>
      rcases List.mem_cons.1 member with rfl | inside
      · exact ⟨Nat.le_trans fits rises, by rw [allowed.traffic]; exact Nat.zero_le _⟩
      · exact of_spec inside rfl
  | store i info =>
      obtain ⟨r, inside, spec⟩ :=
        exists_spec_of_mem_modify (f := fun r => { r with info }) (fun _ => rfl) member
      exact of_spec inside spec
  | drop i => exact of_spec (List.mem_of_mem_eraseIdx member) rfl
  | arrange rs => exact of_spec (allowed.mem_iff.1 member) rfl

end Rollout

namespace Ramp

open Rollout

/-- **The scale bound.**  After a pass that moves, the candidate serves with no more instances than
are wanted unless it is `Overstaffed`.  Another release that serves is the active one that gives
way, with the count for the traffic it had, which is no more than is wanted.  In a run that starts
within the bound and in which the wanted count never falls every pass leaves all releases within
it. -/
theorem serving_count_within_wanted_iff (s : Rollout) :
    (∀ now, Moves s.descriptor s.releases now →
      ∃ result, pass s.descriptor s.releases now = .ok result ∧
        result.releases.length = s.releases.length ∧
        ∀ (i : Nat) (before after : Release), s.releases[i]? = some before →
          result.releases[i]? = some after →
          (after.spec.role = .active ∨ after.spec.role = .target) →
          (Release.firstDeployable s.releases = some i →
            (after.spec.numDesired ≤ s.descriptor.desiredInstances ↔
              ¬ Overstaffed s.descriptor s.releases i before)) ∧
          (Release.firstDeployable s.releases ≠ some i → before.spec.role = .active ∧
            after.spec.numDesired =
              activeCount s.descriptor.desiredInstances before.spec.traffic ∧
            (before.spec.traffic ≤ 100 →
              after.spec.numDesired ≤ s.descriptor.desiredInstances))) ∧
    (s.Within → ∀ es, s.Throughout (fun s e => e.Sustains s) es → ∀ v ∈ s.visits es,
      ∀ r ∈ v.next.releases, r.spec.numDesired ≤ v.desired) := by
  constructor
  · intro now moves
    obtain ⟨p, planned, passed⟩ := moves.exists_plan
    have releases : (p.carryOut s.descriptor s.releases now).releases = _ :=
      releases_carryOut (planOf?_sound planned)
    refine ⟨_, passed, by rw [releases, length_spread], ?_⟩
    intro i before after at_ at' serves
    rw [releases, getElem?_spread at_] at at'
    obtain rfl := Option.some.inj at'
    obtain ⟨candidate, other⟩ := numDesired_of_serving planned at_ serves
    refine ⟨candidate, fun ne => ?_⟩
    obtain ⟨active, count⟩ := other ne
    exact ⟨active, count, fun le => Nat.le_trans (Nat.le_of_eq count) (activeCount_le le)⟩
  · intro within es through v visited r member
    have met := Rollout.forall_visits (P := fun s => s.Within) within_step through within
    exact ((met v visited).1.pass v.now r member).1

namespace Sample

open Cutover.Sample

/-- A promotion on its way to eight instances. -/
def halfway : List Release :=
  [observed .releasing 900 4 (release "web-2" 20 .target 50 6), release "web-1" 10 .active 50 4]

theorem halfway_and_promotion_within :
    (Moves (descriptor 6) halfway 1000 ∧
      ∃ result after, pass (descriptor 6) halfway 1000 = .ok result ∧
        result.releases[0]? = some after ∧ after.spec.role = .target ∧
        after.spec.numDesired ≤ (descriptor 6).desiredInstances) ∧
    settled.Within ∧ settled.Throughout (fun s e => e.Sustains s) promotion ∧
      ∀ v ∈ settled.visits promotion, ∀ r ∈ v.next.releases, r.spec.numDesired ≤ v.desired := by
  have moves : Moves (descriptor 6) halfway 1000 := ⟨by decide, by decide⟩
  have within : settled.Within := by decide
  have through : settled.Throughout (fun s e => e.Sustains s) promotion :=
    ⟨⟨⟨rfl, rfl, rfl⟩, by decide, Nat.zero_le _⟩, ⟨trivial, by decide, trivial⟩,
      ⟨trivial, by decide, trivial⟩, ⟨trivial, by decide, trivial⟩, ⟨trivial, by decide, trivial⟩,
      trivial⟩
  refine ⟨⟨moves, ?_⟩, within, through,
    (serving_count_within_wanted_iff settled).2 within promotion through⟩
  obtain ⟨result, passed, -, each⟩ :=
    (serving_count_within_wanted_iff ⟨descriptor 6, halfway⟩).1 1000 moves
  cases (show pass (descriptor 6) halfway 1000 = .ok _ from rfl).symm.trans passed
  refine ⟨_, _, rfl, rfl, rfl, ((each 0 _ _ rfl rfl (.inr rfl)).1 (by decide)).2 ?_⟩
  rintro ⟨-, more, -⟩
  exact absurd more (by decide)

end Sample

/-- Eight instances were wanted when the target got six of them.  Now four are wanted, and the
target keeps its six. -/
theorem target_above_lowered_scale :
    (∀ r ∈ Sample.halfway, r.spec.numDesired ≤ (Sample.descriptor 8).desiredInstances) ∧
    Moves (Sample.descriptor 4) Sample.halfway 1000 ∧
      ∃ result after, pass (Sample.descriptor 4) Sample.halfway 1000 = .ok result ∧
        targetIndex result.releases = some 0 ∧ result.releases[0]? = some after ∧
        after.spec.role = .target ∧
        (Sample.descriptor 4).desiredInstances < after.spec.numDesired :=
  ⟨by decide, ⟨by decide, by decide⟩, _, _, rfl, by decide, rfl, rfl, by decide⟩

end Ramp
end Cutover
