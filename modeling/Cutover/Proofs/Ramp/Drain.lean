/-
# Cutover.Proofs.Ramp.Drain -- which releases are switched off, and when

A pass that moves switches off every bad release, and leaves no instances to a release without
a role whose state is older than a readiness timeout.  A pass without a candidate leaves
everything as it is, and so it leaves a bad release on (`bad_releases_off_iff`,
`last_bad_release_left_on`).

A release that loses the active role keeps its instances in that pass.  From then on it is
drained by the date of its state, which health steps write and passes do not.  Until a health step
has given it a new date it has the one from before the demotion, and a pass drains it if that one
is old; afterwards no pass within a readiness timeout does.  Which of the two comes first is left
open (`demoted_release_drained_iff`, `demoted_release_drained_at_once`).
-/
import Cutover.Proofs.Ramp.Capacity
import Cutover.Proofs.Ramp.GivenUp

namespace Cutover

set_option autoImplicit false

/-- Without traffic and without instances. -/
def Release.IsOff (r : Release) : Prop := r.spec.traffic = 0 ∧ r.spec.numDesired = 0

namespace Ramp

variable {d : Descriptor} {rs : List Release} {now : Nat} {p : Plan}

/-! ## Bad releases -/

theorem firstDeployable_isSome_iff :
    (Release.firstDeployable rs).isSome ↔ ∃ r ∈ rs, Release.isDeployable r = true := by
  constructor
  · intro some_
    obtain ⟨c, found⟩ := Option.isSome_iff_exists.1 some_
    obtain ⟨r, at_, deployable⟩ := Release.firstDeployable_spec found
    exact ⟨r, List.mem_of_getElem? at_, deployable⟩
  · rintro ⟨r, inside, deployable⟩
    obtain ⟨i, at_⟩ := List.getElem?_of_mem inside
    exact Release.firstDeployable_isSome at_ deployable

section Assign

variable {desired timeout i : Nat} {r : Release}

/-- A release that a plan leaves bad stands outside of it. -/
theorem outside_of_bad (bad : (p.assign desired timeout now i r).spec.role = .bad) :
    i ≠ p.active ∧ i ≠ p.target ∧ r.spec.role = .bad := by
  rw [role_assign] at bad
  split_ifs at bad with active target was
  exact ⟨active, target, was⟩

/-- A release that a plan leaves without a role stands outside of it. -/
theorem outside_of_none (none_ : (p.assign desired timeout now i r).spec.role = .none) :
    i ≠ p.active ∧ i ≠ p.target := by
  rw [role_assign] at none_
  split_ifs at none_ with active target was
  exact ⟨active, target⟩

theorem isOff_assign_of_bad (bad : (p.assign desired timeout now i r).spec.role = .bad) :
    (p.assign desired timeout now i r).IsOff := by
  obtain ⟨active, target, was⟩ := outside_of_bad bad
  refine ⟨?_, ?_⟩
  · rw [traffic_assign, Plan.share, if_neg active, if_neg target]
  · rw [numDesired_assign, if_neg target, if_neg active, if_pos (.inl was)]

theorem isDrained_iff : isDrained timeout now r = true ↔
    r.spec.role ≠ .active ∧ timeout < now - r.status.stateChangedAt := by
  simp [isDrained]

theorem numDesired_assign_of_none (none_ : (p.assign desired timeout now i r).spec.role = .none)
    (notActive : r.spec.role ≠ .active) (old : timeout < now - r.status.stateChangedAt) :
    (p.assign desired timeout now i r).spec.numDesired = 0 := by
  obtain ⟨active, target⟩ := outside_of_none none_
  rw [numDesired_assign, if_neg target, if_neg active,
    if_pos (.inr (isDrained_iff.2 ⟨notActive, old⟩))]

end Assign

/-- **Bad means off, if there is a candidate.**  A pass past the cooldown succeeds.  If some
release may be given traffic, every release that is bad after it is off, and every release without
a role that was not active and has an old state has no instances.  If none may, these are off or
without instances only as far as they were before. -/
theorem bad_releases_off_iff (nonempty : rs ≠ []) (free : hold? d rs now = none) :
    ∃ result, pass d rs now = .ok result ∧ result.releases.length = rs.length ∧
      ∀ (i : Nat) (before after : Release), rs[i]? = some before →
        result.releases[i]? = some after →
        (after.spec.role = .bad →
          (after.IsOff ↔ (∃ r ∈ rs, Release.isDeployable r = true) ∨ before.IsOff)) ∧
        (after.spec.role = .none → before.spec.role ≠ .active →
          d.readinessTimeout < now - before.status.stateChangedAt →
          (after.spec.numDesired = 0 ↔
            (∃ r ∈ rs, Release.isDeployable r = true) ∨ before.spec.numDesired = 0)) := by
  by_cases deployable : ∃ r ∈ rs, Release.isDeployable r = true
  · obtain ⟨p, planned, passed⟩ :=
      Moves.exists_plan ⟨free, firstDeployable_isSome_iff.2 deployable⟩
    have releases : (p.carryOut d rs now).releases =
        p.spread d.desiredInstances d.readinessTimeout now rs :=
      releases_carryOut (planOf?_sound planned)
    refine ⟨_, passed, by rw [releases, length_spread], fun i before after at_ at' => ?_⟩
    rw [releases, spread_getElem?, at_] at at'
    obtain rfl := Option.some.inj at'
    refine ⟨fun bad => ?_, fun none_ notActive old => ?_⟩
    · exact iff_of_true (isOff_assign_of_bad bad) (.inl deployable)
    · exact iff_of_true (numDesired_assign_of_none none_ notActive old) (.inl deployable)
  · have still : ¬ Moves d rs now := fun moves => deployable (firstDeployable_isSome_iff.1 moves.2)
    obtain ⟨outcome, passed⟩ := pass_of_not_moves nonempty still
    refine ⟨_, passed, rfl, fun i before after at_ at' => ?_⟩
    obtain rfl : before = after := Option.some.inj (at_.symm.trans at')
    simp [deployable]

namespace Sample

open Cutover.Sample

/-- The only serving release has been marked as bad, with and without another to take over. -/
def condemned : List Release := [release "web-1" 10 .bad 100 4]

def replaced : List Release := [release "web-2" 20 .none 0 0, release "web-1" 10 .bad 100 4]

theorem bad_release_off_once_replaced :
    replaced ≠ [] ∧ hold? (descriptor 4) replaced 1000 = none ∧
      ∃ result after, pass (descriptor 4) replaced 1000 = .ok result ∧
        result.releases[1]? = some after ∧ after.spec.role = .bad ∧ after.IsOff := by
  have free : hold? (descriptor 4) replaced 1000 = none := by decide
  have nonempty : replaced ≠ [] := by simp [replaced]
  obtain ⟨result, passed, -, each⟩ := bad_releases_off_iff nonempty free
  cases (show pass (descriptor 4) replaced 1000 = .ok _ from rfl).symm.trans passed
  refine ⟨nonempty, free, _, _, rfl, rfl, rfl, ?_⟩
  exact ((each 1 _ _ rfl rfl).1 rfl).2 (.inl ⟨_, List.mem_cons_self, rfl⟩)

end Sample

/-- A bad release with all traffic keeps traffic and instances if there is no other. -/
theorem last_bad_release_left_on :
    Sample.condemned ≠ [] ∧ hold? (Sample.descriptor 4) Sample.condemned 1000 = none ∧
      ∃ result after, pass (Sample.descriptor 4) Sample.condemned 1000 = .ok result ∧
        result.releases[0]? = some after ∧ after.spec.role = .bad ∧
        after.spec.traffic = 100 ∧ after.spec.numDesired = 4 :=
  ⟨by simp [Sample.condemned], by decide, _, _, rfl, rfl, rfl, rfl, rfl⟩

/-! ## Releases that have lost the active role -/

theorem Plan.Made.count_eq_zero_iff {c : Nat} {r : Release} (made : Plan.Made d rs c r p) :
    p.count = 0 ↔ d.desiredInstances = 0 := by
  constructor
  · intro none_
    by_contra positive
    have := made.count_pos (Nat.pos_of_ne_zero positive)
    omega
  · intro zero
    cases made with
    | stopped _ => rfl
    | steady positive _ => omega
    | ramping positive active ne given raise => omega

/-- A release that is neither active nor bad loses its instances exactly by a pass that moves and
either picks it while nothing is wanted, or passes it over while its state is old. -/
theorem emptied_iff {i : Nat} {r : Release} (at_ : rs[i]? = some r)
    (notActive : r.spec.role ≠ .active) (notBad : r.spec.role ≠ .bad)
    (running : 0 < r.spec.numDesired) :
    ∃ result after, pass d rs now = .ok result ∧ result.releases[i]? = some after ∧
      (after.spec.numDesired = 0 ↔ Moves d rs now ∧
        (Release.firstDeployable rs = some i ∧ d.desiredInstances = 0 ∨
          Release.firstDeployable rs ≠ some i ∧
            d.readinessTimeout < now - r.status.stateChangedAt)) := by
  by_cases moves : Moves d rs now
  · obtain ⟨p, planned, passed⟩ := moves.exists_plan
    obtain ⟨c, x, first, -, -, made⟩ := planOf?_made planned
    have after : (p.carryOut d rs now).releases[i]? =
        some (p.mark i (p.assign d.desiredInstances d.readinessTimeout now i r)) :=
      getElem?_carryOut (planOf?_sound planned) at_
    refine ⟨_, _, passed, after, ?_⟩
    rw [mark_spec, numDesired_assign, made.target_eq, first]
    by_cases target : i = c
    · simp [target, moves, made.count_eq_zero_iff]
    · -- the active release of a plan that is not its target was active before
      have active : i ≠ p.active := by
        rintro rfl
        exact notActive (made.active_of_ne (made.target_eq ▸ target) at_)
      rw [if_neg target, if_neg active]
      have picked : ¬ (some c = some i) := fun same => target (Option.some.inj same).symm
      have drained : isDrained d.readinessTimeout now r = true ↔
          r.spec.role ≠ .active ∧ d.readinessTimeout < now - r.status.stateChangedAt := isDrained_iff
      by_cases old : d.readinessTimeout < now - r.status.stateChangedAt
      · rw [if_pos (.inr (drained.2 ⟨notActive, old⟩))]
        simp [moves, picked, old]
      · have kept : ¬ (r.spec.role = .bad ∨ isDrained d.readinessTimeout now r = true) := by
          rintro (bad | h)
          · exact notBad bad
          · exact old (drained.1 h).2
        rw [if_neg kept]
        simp [picked, old, Nat.ne_of_gt running]
  · have ne : rs ≠ [] := List.ne_nil_of_mem (List.mem_of_getElem? at_)
    obtain ⟨outcome, passed⟩ := pass_of_not_moves ne moves
    exact ⟨_, r, passed, at_, fun none_ => by omega, fun h => absurd h.1 moves⟩

/-- The plan that takes the active role from a release leaves it its instances, and perhaps adds
some if it makes it the target. -/
theorem numDesired_assign_of_demoted (planned : planOf? d rs = some p) {desired timeout i : Nat}
    {r : Release} (at_ : rs[i]? = some r) (active : r.spec.role = .active)
    (demoted : (p.assign desired timeout now i r).spec.role ≠ .active) :
    r.spec.numDesired ≤ (p.assign desired timeout now i r).spec.numDesired ∧
      ((p.assign desired timeout now i r).spec.role = .none →
        (p.assign desired timeout now i r).spec.numDesired = r.spec.numDesired) := by
  have away : i ≠ p.active := fun here => demoted (by rw [role_assign, if_pos here])
  obtain ⟨c, x, -, at_c, -, made⟩ := planOf?_made planned
  by_cases target : i = p.target
  · -- two releases were active, and this one is the candidate
    refine ⟨?_, fun none_ => absurd target (outside_of_none none_).2⟩
    rw [numDesired_assign, if_pos target]
    cases made with
    | stopped _ => exact absurd target away
    | steady _ _ => exact absurd target away
    | @ramping a _ _ _ traffic raised _ _ =>
        simp only at target
        subst target
        obtain rfl : r = x := Option.some.inj (at_.symm.trans at_c)
        exact Nat.le_max_left ..
  · have kept : ¬ (r.spec.role = .bad ∨ isDrained timeout now r = true) := by
      simp [active, isDrained]
    rw [numDesired_assign, if_neg target, if_neg away, if_neg kept]
    exact ⟨Nat.le_refl _, fun _ => rfl⟩

end Ramp

/-! ## Dates of states -/

namespace Upkeep

/-- When something happens, if it depends on the time. -/
def time? : Upkeep → Option Nat
  | pass now => some now
  | check _ _ _ now => some now
  | _ => none

/-- Nothing in a run happens before a time. -/
def From (start : Nat) (us : List Upkeep) : Prop :=
  ∀ u ∈ us, ∀ now, u.time? = some now → start ≤ now

end Upkeep

namespace Rollout

variable {s : Rollout} {i : Nat} {r : Release}

/-- A health step of the release at a position that dates its state: it finds another state than
before, or one that has no date. -/
def Dates (s : Rollout) (i : Nat) : Upkeep → Prop
  | .check position counts diagnosis _ => position = i ∧ ∃ r, s.releases[i]? = some r ∧
      (r.nextState counts diagnosis ≠ r.status.state ∨ r.status.stateChangedAt = 0)
  | _ => False

/-- Some health step of a run dates the state of the release that stands at a position. -/
def DatesIn : Rollout → Nat → List Upkeep → Prop
  | _, _, [] => False
  | s, i, u :: rest => s.Dates i u ∨ DatesIn (s.tend u) (u.follow i) rest

/-- What happens to a release in one step: it does not become bad, and its state gets the date of
the step if the step dates it, and else keeps the one it has. -/
theorem dated_tend (at_ : s.releases[i]? = some r) (u : Upkeep) :
    ∃ r', (s.tend u).releases[u.follow i]? = some r' ∧
      (r.spec.role ≠ .bad → r'.spec.role ≠ .bad) ∧
      (s.Dates i u → u.time? = some r'.status.stateChangedAt) ∧
      (¬ s.Dates i u → r'.status.stateChangedAt = r.status.stateChangedAt) := by
  cases u with
  | pass now =>
      show ∃ r', (s.step (.pass now)).releases[i]? = some r' ∧ _
      rcases releases_step_pass s now with same | ⟨p, planned, spread⟩
      · rw [same]
        exact ⟨r, at_, id, fun dates => dates.elim, fun _ => rfl⟩
      · rw [spread, Ramp.spread_getElem?, at_]
        refine ⟨_, rfl, fun notBad bad => ?_, fun dates => dates.elim, fun _ => ?_⟩
        · exact notBad (Ramp.outside_of_bad bad).2.2
        · rw [Ramp.mark_status, Ramp.status_assign]
  | describe d => exact ⟨r, at_, id, fun dates => dates.elim, fun _ => rfl⟩
  | check position counts diagnosis now =>
      show ∃ r', (s.releases.modify position _)[i]? = some r' ∧ _
      rw [List.getElem?_modify, at_]
      by_cases here : position = i
      · subst here
        simp only [if_true]
        refine ⟨_, rfl, id, ?_, fun keeps => ?_⟩
        · rintro ⟨-, x, at_x, differs⟩
          obtain rfl : r = x := Option.some.inj (at_.symm.trans at_x)
          show some now = some (if _ then _ else now)
          rw [if_neg]
          tauto
        · show (if _ then _ else now) = _
          rw [if_pos]
          by_contra differs
          exact keeps ⟨rfl, r, at_, by tauto⟩
      · simp only [if_neg here]
        exact ⟨r, rfl, id, fun dates => absurd dates.1 here, fun _ => rfl⟩
  | add position new =>
      exact ⟨r, (getElem?_tend_add s position new i).trans at_, id, fun dates => dates.elim,
        fun _ => rfl⟩

/-- Over a run the state of a release has the date of the last step that dated it, or the one it
had if there was none. -/
theorem dated_tended (at_ : s.releases[i]? = some r) {start : Nat} {us : List Upkeep}
    (from_ : Upkeep.From start us) :
    ∃ r', (s.tended us).releases[Upkeep.followAll us i]? = some r' ∧
      (r.spec.role ≠ .bad → r'.spec.role ≠ .bad) ∧
      (s.DatesIn i us → start ≤ r'.status.stateChangedAt) ∧
      (¬ s.DatesIn i us → r'.status.stateChangedAt = r.status.stateChangedAt) := by
  induction us generalizing s i r with
  | nil => exact ⟨r, at_, id, fun dates => dates.elim, fun _ => rfl⟩
  | cons u rest ih =>
      obtain ⟨first, later⟩ := List.forall_mem_cons.1 from_
      obtain ⟨mid, at_mid, notBad, dated, kept⟩ := dated_tend at_ u
      obtain ⟨r', at', notBad', dated', kept'⟩ := ih at_mid later
      refine ⟨r', at', notBad' ∘ notBad, ?_, fun none_ => ?_⟩
      · by_cases again : (s.tend u).DatesIn (u.follow i) rest
        · exact fun _ => dated' again
        · rintro (now | absurd_)
          · rw [kept' again]
            exact first _ (dated now)
          · exact absurd absurd_ again
      · rw [kept' (not_or.1 none_).2, kept (not_or.1 none_).1]

/-- A pass takes all instances from the release at a position. -/
def Empties (s : Rollout) (i now : Nat) : Prop :=
  ∃ before after, s.releases[i]? = some before ∧ 0 < before.spec.numDesired ∧
    (s.tend (.pass now)).releases[i]? = some after ∧ after.spec.numDesired = 0

theorem empties_iff (at_ : s.releases[i]? = some r) (notActive : r.spec.role ≠ .active)
    (notBad : r.spec.role ≠ .bad) (running : 0 < r.spec.numDesired) (now : Nat) :
    s.Empties i now ↔ Ramp.Moves s.descriptor s.releases now ∧
      (Release.firstDeployable s.releases = some i ∧ s.descriptor.desiredInstances = 0 ∨
        Release.firstDeployable s.releases ≠ some i ∧
          s.descriptor.readinessTimeout < now - r.status.stateChangedAt) := by
  obtain ⟨result, after, passed, at', emptied⟩ :=
    @Ramp.emptied_iff s.descriptor s.releases now i r at_ notActive notBad running
  have tended : (s.tend (.pass now)).releases = result.releases := by
    simp only [tend, step, passed]
  rw [← emptied, Empties, tended]
  constructor
  · rintro ⟨x, y, -, -, at_y, none_⟩
    rw [at'] at at_y
    rwa [Option.some.inj at_y]
  · exact fun none_ => ⟨r, after, at_, running, at', none_⟩

/-- The pass that takes the active role from a release leaves it its instances. -/
theorem kept_by_demotion {t : Nat} {r' : Release} (at_ : s.releases[i]? = some r)
    (active : r.spec.role = .active) (at' : (s.tend (.pass t)).releases[i]? = some r')
    (demoted : r'.spec.role ≠ .active) :
    r.spec.numDesired ≤ r'.spec.numDesired ∧
      (r'.spec.role = .none → r'.spec.numDesired = r.spec.numDesired) := by
  rcases releases_step_pass s t with same | ⟨p, planned, spread⟩
  · rw [show (s.tend (.pass t)).releases = s.releases from same, at_] at at'
    exact absurd (Option.some.inj at' ▸ active) demoted
  · rw [show (s.tend (.pass t)).releases = _ from spread, Ramp.spread_getElem?, at_] at at'
    obtain rfl := Option.some.inj at'
    exact Ramp.numDesired_assign_of_demoted planned at_ active demoted

/-- **A release that has lost the active role.**  The pass at `t` that takes the role leaves its
instances.  Then let passes, health steps, edits and new releases come in any order, none before
`t`.  As long as the release is not active again, a pass up to a readiness timeout after `t` takes
all its instances exactly if it moves and

* nothing is wanted and the release is the candidate, or
* it is not the candidate, no health step since has dated its state, and the date from before the
  demotion is older than a readiness timeout. -/
theorem demoted_release_drained_iff {t : Nat} {r' : Release} (at_ : s.releases[i]? = some r)
    (active : r.spec.role = .active) (at' : (s.tend (.pass t)).releases[i]? = some r')
    (demoted : r'.spec.role ≠ .active) :
    (r.spec.numDesired ≤ r'.spec.numDesired ∧
      (r'.spec.role = .none → r'.spec.numDesired = r.spec.numDesired)) ∧
    ∀ (us : List Upkeep), Upkeep.From t us → ∀ (now : Nat) (s' : Rollout) (j : Nat) (x : Release),
      s' = s.tended (.pass t :: us) → j = Upkeep.followAll us i → s'.releases[j]? = some x →
      x.spec.role ≠ .active → 0 < x.spec.numDesired →
      now ≤ t + s'.descriptor.readinessTimeout →
      (s'.Empties j now ↔ Ramp.Moves s'.descriptor s'.releases now ∧
        (Release.firstDeployable s'.releases = some j ∧ s'.descriptor.desiredInstances = 0 ∨
          Release.firstDeployable s'.releases ≠ some j ∧
            ¬ (s.tend (.pass t)).DatesIn i us ∧
            s'.descriptor.readinessTimeout < now - r.status.stateChangedAt)) := by
  refine ⟨kept_by_demotion at_ active at' demoted, ?_⟩
  rintro us from_ now s' j x rfl rfl at_x notActive running soon
  obtain ⟨mid, at_mid, notBad, -, kept⟩ := dated_tend at_ (.pass t)
  obtain ⟨y, at_y, notBad', dated, kept'⟩ := dated_tended at_mid from_
  obtain rfl : x = y := Option.some.inj (at_x.symm.trans at_y)
  rw [empties_iff at_x notActive (notBad' (notBad (by simp [active]))) running]
  by_cases dates : (s.tend (.pass t)).DatesIn i us
  · have fresh : ¬ (s.tended (.pass t :: us)).descriptor.readinessTimeout <
        now - x.status.stateChangedAt := by
      have := dated dates
      omega
    simp [dates, fresh]
  · rw [kept' dates, kept id]
    simp [dates]

end Rollout

namespace Sample

open Rollout

def observed (state : ReleaseState) (since available : Nat) (r : Release) : Release :=
  { r with status := { r.status with
      state, stateChangedAt := since, numAvailable := available } }

/-- The target is about to take the rest of the traffic. -/
def climbed : Rollout :=
  ⟨descriptor 4, [observed .releasing 900 4 (release "web-2" 20 .target 75 4),
    observed .released 100 1 (release "web-1" 10 .active 25 1)]⟩

/-- Whether a health step comes first decides over the instances. -/
theorem demoted_release_kept_once_dated :
    climbed.releases[1]?.map (·.spec.role) = some .active ∧
      (climbed.tended [.pass 1000]).Empties 1 1001 ∧
      ¬ (climbed.tended [.pass 1000, .check 1 ⟨1, 1, 1⟩ none 1000]).Empties 1 1060 := by
  have demoted := (@demoted_release_drained_iff climbed 1 _ 1000 _ rfl rfl rfl (by decide)).2
  refine ⟨rfl, ?_, ?_⟩
  · refine (demoted [] (by simp [Upkeep.From]) 1001 _ 1 _ rfl rfl rfl (by decide) (by decide)
      (by decide)).2 ⟨⟨by decide, by decide⟩, .inr ⟨by decide, id, by decide⟩⟩
  · rw [demoted [.check 1 ⟨1, 1, 1⟩ none 1000] (by simp [Upkeep.From, Upkeep.time?]) 1060 _ 1 _
      rfl rfl rfl (by decide) (by decide) (by decide)]
    rintro ⟨-, ⟨candidate, -⟩ | ⟨-, undated, -⟩⟩
    · exact absurd candidate (by decide)
    · exact undated (.inl ⟨rfl, _, rfl, .inl (by decide)⟩)

end Sample

/-- A pass one second after the promotion takes the instance of the release that was active. -/
theorem demoted_release_drained_at_once :
    ∃ before demoted drained, Sample.climbed.releases[1]? = some before ∧
      before.spec.role = .active ∧ 0 < before.spec.numDesired ∧
      (Sample.climbed.tended [.pass 1000]).releases[1]? = some demoted ∧
      demoted.spec.role = .none ∧ demoted.spec.numDesired = before.spec.numDesired ∧
      (Sample.climbed.tended [.pass 1000, .pass 1001]).releases[1]? = some drained ∧
      drained.spec.numDesired = 0 ∧ 1001 ≤ 1000 + Sample.climbed.descriptor.readinessTimeout :=
  ⟨_, _, _, rfl, rfl, by decide, rfl, rfl, rfl, rfl, rfl, by decide⟩

end Cutover
