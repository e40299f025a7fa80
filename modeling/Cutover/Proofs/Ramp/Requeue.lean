/-
# Cutover.Proofs.Ramp.Requeue -- no work is left without a wake-up

A pass asks to be called again while it is held, while a promotion goes on, and while a release
without a role keeps instances that are to be drained.  If it has a candidate and does not ask, the
rollout is `Finished`: one active release without a rival, and all others retired.  A pass over
such a list is never held, and writes nothing but the count of the active release
(`Finished.pass_eq`), whatever the time and the descriptor.  So nothing else moves until releases
report, come or go (`finished_run`).

A pass that is held asks for the rest of the readiness timeout, to the second: every earlier pass
is held, every later one moves (`held_until`).
-/
import Cutover.Proofs.Ramp.Succession

namespace Cutover

set_option autoImplicit false

namespace Release

/-- Without a role or bad, off, and without the mark of a promotion. -/
structure Retired (r : Release) : Prop where
  role : r.spec.role = .none ∨ r.spec.role = .bad
  off : r.IsOff
  unmarked : r.label? Label.promotionTarget = none

end Release

/-- A pass, or an edit of the descriptor: no news of the releases. -/
def Rollout.Event.IsInternal : Rollout.Event → Prop
  | .pass _ => True
  | .describe _ => True
  | _ => False

namespace Ramp

open Release

variable {d : Descriptor} {rs : List Release} {now : Nat} {p : Plan} {c : Nat} {r : Release}

/-! ## A pass that is held -/

/-- Where a promotion is under way there is a candidate: at least the active release. -/
theorem firstDeployable_isSome_of_promoting (promoting : isPromoting rs = true) :
    (firstDeployable rs).isSome := by
  unfold isPromoting at promoting
  cases active : activeIndex rs with
  | none => simp [active] at promoting
  | some a =>
      obtain ⟨r, at_, role⟩ := activeIndex_spec active
      exact firstDeployable_isSome at_ (isDeployable_of_active role)

/-- **The cooldown ends on time.**  Before the time that a held pass asks for every pass is held;
from then on every pass moves. -/
theorem held_until {remaining : Nat} (held : hold? d rs now = some remaining)
    (ordered : d.status.deployUpdatedAt ≤ now) (t : Nat) :
    (t < now + remaining → ∃ wait, hold? d rs t = some wait) ∧
      (now + remaining ≤ t → Moves d rs t) := by
  obtain ⟨promoting, early, rest⟩ := hold?_eq_some_iff.1 held
  constructor
  · intro before
    exact ⟨_, hold?_eq_some_iff.2 ⟨promoting, by omega, rfl⟩⟩
  · intro after
    refine ⟨Option.eq_none_iff_forall_ne_some.2 fun wait held' => ?_,
      firstDeployable_isSome_of_promoting promoting⟩
    have := (hold?_eq_some_iff.1 held').2.1
    omega

/-! ## A finished rollout -/

/-- One active release has all traffic, no rival and no mark, and all others are retired. -/
structure Finished (rs : List Release) (c : Nat) (r : Release) : Prop extends Unopposed rs c where
  here : rs[c]? = some r
  traffic : r.spec.traffic = 100
  unmarked : r.label? Label.promotionTarget = none
  others : ∀ i o, rs[i]? = some o → i ≠ c → o.Retired

/-- A mark that is not there is not removed. -/
theorem mark_eq_self {i : Nat} (unmarked : r.label? Label.promotionTarget = none)
    (outside : ¬ (i = p.target ∧ p.target ≠ p.active)) : p.mark i r = r := by
  unfold Plan.mark
  rw [if_neg outside, Dict.erase_eq_self _ unmarked]

theorem assign_eq_self_of_retired (retired : r.Retired) {desired timeout i : Nat}
    (active : i ≠ p.active) (target : i ≠ p.target) : p.assign desired timeout now i r = r := by
  apply assign_eq_self
  · rw [role_assign, if_neg active, if_neg target]
    rcases retired.role with role | role <;> simp [role]
  · rw [traffic_assign, Plan.share, if_neg active, if_neg target, retired.off.1]
  · rw [numDesired_assign, if_neg target, if_neg active, retired.off.2, ite_self]

namespace Finished

variable (finished : Finished rs c r)

include finished

theorem role : r.spec.role = .active := by
  obtain ⟨o, at_, role⟩ := activeIndex_spec finished.active
  exact Option.some.inj (finished.here.symm.trans at_) ▸ role

/-- The plan that keeps the release gives it a count and nothing else. -/
theorem assign_keep (e : Descriptor) (desired timeout t : Nat) :
    (Plan.keep e c r).assign desired timeout t c r = r.sized e.desiredInstances := by
  have role : ((Plan.keep e c r).assign desired timeout t c r).spec.role = r.spec.role := by
    rw [role_assign, finished.role]
    exact if_pos rfl
  have traffic : ((Plan.keep e c r).assign desired timeout t c r).spec.traffic =
      r.spec.traffic := by
    rw [traffic_assign, finished.traffic]
    simp [Plan.share, Plan.keep]
  rw [assign_eq_sized role traffic, numDesired_assign]
  exact congrArg (r.sized ·) (if_pos rfl)

theorem spread_eq (e : Descriptor) (desired timeout t : Nat) :
    (Plan.keep e c r).spread desired timeout t rs = rs.modify c (·.sized e.desiredInstances) := by
  apply List.ext_getElem?
  intro i
  by_cases own : i = c
  · subst own
    have unmarked : (r.sized e.desiredInstances).label? Label.promotionTarget = none :=
      finished.unmarked
    rw [getElem?_spread finished.here, List.getElem?_modify_eq, finished.here,
      finished.assign_keep, mark_eq_self unmarked fun h => h.2 rfl]
    rfl
  · rw [spread_getElem?, List.getElem?_modify_ne _ _ (Ne.symm own)]
    cases at_ : rs[i]? with
    | none => rfl
    | some o =>
        have retired := finished.others i o at_ own
        have kept : (Plan.keep e c r).assign desired timeout t i o = o :=
          assign_eq_self_of_retired retired own own
        rw [Option.map_some, kept, mark_eq_self retired.unmarked fun h => own h.1]

/-- **A pass over a finished rollout** sets the count of the active release and does nothing else,
whatever the descriptor and the time. -/
theorem pass_eq (e : Descriptor) (t : Nat) : ∃ next, pass e rs t = .ok next ∧
    next.releases = rs.modify c (·.sized e.desiredInstances) ∧
    next.descriptor.status.numDesired =
      (if r.info.isPersisted then r.status.numDesired else e.status.numDesired) ∧
    Finished next.releases c (r.sized e.desiredInstances) := by
  have unopposed := finished.toUnopposed
  have planned := unopposed.planOf?_eq (d := e) finished.here
  have sound := planOf?_sound planned
  have releases : ((Plan.keep e c r).carryOut e rs t).releases =
      rs.modify c (·.sized e.desiredInstances) := by
    rw [releases_carryOut sound, finished.spread_eq]
  have next : Unopposed (rs.modify c (·.sized e.desiredInstances)) c := by
    rw [← finished.spread_eq e e.desiredInstances e.readinessTimeout t]
    exact unopposed_spread planned rfl
  refine ⟨_, unopposed.pass_eq finished.here, releases,
    numDesired_carryOut_of_kept sound rfl finished.here, ?_⟩
  rw [releases]
  refine ⟨next, ?_, finished.traffic, finished.unmarked, fun i o at_ ne => ?_⟩
  · rw [List.getElem?_modify_eq, finished.here]
    rfl
  · rw [List.getElem?_modify_ne _ _ ne.symm] at at_
    exact finished.others i o at_ ne

end Finished

/-- **Along a run** of passes and edits of the descriptor a finished rollout stays as it is, up to
the count of its active release. -/
theorem finished_run {s : Rollout} (finished : Finished s.releases c r) {es : List Rollout.Event}
    (internal : ∀ e ∈ es, e.IsInternal) : ∃ count,
      (s.run es).releases = s.releases.modify c (·.sized count) ∧
        Finished (s.run es).releases c (r.sized count) := by
  -- each pass finds the list finished again, with another count
  induction es generalizing s r with
  | nil =>
      refine ⟨r.spec.numDesired, ?_, finished⟩
      apply List.ext_getElem?
      intro i
      by_cases own : i = c
      · subst own
        rw [List.getElem?_modify_eq, Rollout.run, List.foldl_nil, finished.here]
        rfl
      · rw [List.getElem?_modify_ne _ _ (Ne.symm own), Rollout.run, List.foldl_nil]
  | cons e rest ih =>
      obtain ⟨first, later⟩ := List.forall_mem_cons.1 internal
      cases e with
      | pass t =>
          obtain ⟨next, passed, releases, -, finished'⟩ := finished.pass_eq s.descriptor t
          have step : s.step (.pass t) = ⟨next.descriptor, next.releases⟩ := by
            simp only [Rollout.step, passed]
          obtain ⟨count, same, still⟩ := ih (s := ⟨next.descriptor, next.releases⟩) finished' later
          refine ⟨count, ?_, ?_⟩
          · show ((s.step (.pass t)).run rest).releases = _
            rw [step, same, releases, List.modify_modify_eq]
            rfl
          · show Finished ((s.step (.pass t)).run rest).releases c _
            rw [step]
            exact still
      | describe e => exact ih finished later
      | observe i status => exact first.elim
      | add o => exact first.elim
      | store i info => exact first.elim
      | drop i => exact first.elim
      | arrange os => exact first.elim

/-! ## A pass that does not ask for another -/

/-- A plan that does not ask for another pass makes its target the active release. -/
theorem Plan.Made.whole_of_not_again (made : Plan.Made d rs c r p) (last : p.again = false) :
    p.active = p.target := by
  cases made with
  | stopped zero => rfl
  | steady positive own => rfl
  | @ramping a positive active ne traffic raised given raise =>
      have whole : traffic = 100 := by simpa using last
      exact if_pos whole

/-- A release that a plan passes over without waiting for it is retired. -/
theorem retired_of_not_waiting {timeout i : Nat} (desired : Nat) (active : i ≠ p.active)
    (target : i ≠ p.target) (done : p.isWaiting timeout now i r = false) :
    (p.mark i (p.assign desired timeout now i r)).Retired := by
  have off : r.spec.role = .bad ∨ isDrained timeout now r = true := by
    by_contra waits
    obtain ⟨notBad, undrained⟩ := not_or.1 waits
    simp [Plan.isWaiting, active, target, notBad, undrained] at done
  refine ⟨?_, ⟨?_, ?_⟩, ?_⟩
  · rw [mark_spec, role_assign, if_neg active, if_neg target]
    split
    · exact .inr rfl
    · exact .inl rfl
  · rw [mark_spec, traffic_assign, Plan.share, if_neg active, if_neg target]
  · rw [mark_spec, numDesired_assign, if_neg target, if_neg active, if_pos off]
  · rw [label?_mark, if_neg fun h => target h.1]

/-- A plan that does not ask for another pass finishes the rollout. -/
theorem finished_of_plan (planned : planOf? d rs = some p)
    (last : (p.carryOut d rs now).outcome.requeueAfter = none) :
    p.active = p.target ∧ ∃ r, Finished (p.carryOut d rs now).releases p.target r := by
  have sound := planOf?_sound planned
  obtain ⟨c, r, -, at_, -, made⟩ := planOf?_made planned
  obtain rfl := made.target_eq
  have quiet : p.again = false ∧ ∀ (i : Nat) (lt : i < rs.length),
      p.isWaiting d.readinessTimeout now i rs[i] = false := by
    unfold Plan.carryOut at last
    simpa using last
  have same := made.whole_of_not_again quiet.1
  refine ⟨same, p.mark p.target (p.assign d.desiredInstances d.readinessTimeout now p.target r), ?_⟩
  rw [releases_carryOut sound]
  refine ⟨unopposed_spread planned same, ?_, ?_, ?_, fun i o there ne => ?_⟩
  · exact getElem?_spread at_
  · rw [mark_spec, traffic_assign, Plan.share, if_pos same.symm, if_pos rfl, sound.whole_iff.1 same]
  · rw [label?_mark, if_neg fun h => h.2 same.symm]
  · obtain ⟨before, at_', rfl⟩ := exists_of_spread_getElem? there
    obtain ⟨lt, rfl⟩ := List.getElem?_eq_some_iff.1 at_'
    exact retired_of_not_waiting _ (same ▸ ne) ne (quiet.2 i lt)

/-- The status after such a plan names one release twice, and has its count once it is stored. -/
theorem names_of_finished (planned : planOf? d rs = some p) (same : p.active = p.target)
    (here : (p.carryOut d rs now).releases[p.target]? = some r) :
    (p.carryOut d rs now).descriptor.status.activeRelease = r.name ∧
      (p.carryOut d rs now).descriptor.status.targetRelease = r.name ∧
      (r.info.isPersisted = true →
        (p.carryOut d rs now).descriptor.status.numDesired = r.status.numDesired) := by
  have sound := planOf?_sound planned
  refine ⟨?_, ?_, fun stored => ?_⟩
  · rw [activeRelease_carryOut, same, here]
    rfl
  · rw [targetRelease_carryOut, here]
    rfl
  · rw [releases_carryOut sound] at here
    obtain ⟨before, at_, rfl⟩ := exists_of_spread_getElem? here
    have stored : before.info.isPersisted = true := by rwa [← (coeval_assign ..).persisted]
    rw [numDesired_carryOut_of_kept sound same (same ▸ at_), if_pos stored, mark_status,
      status_assign]

/-- **No work is left without a wake-up.**  A pass over some releases succeeds.

* If some release may be given traffic and the pass does not ask for another, one release is active
  and the target, with all traffic, and all others are off.  From then on, after any passes at any
  times and any edits of the descriptor, a pass changes nothing but the count of that release,
  which becomes the one that the descriptor has; and the descriptor takes over the count that a
  stored release has seen.
* If the pass is held it asks for the time at which it is not.  With a clock that has reached the
  last movement, every pass before that time is held, and every pass from then on moves. -/
theorem no_work_left_without_requeue (nonempty : rs ≠ []) (d : Descriptor) (now : Nat) :
    ∃ result, pass d rs now = .ok result ∧
      ((∃ r ∈ rs, isDeployable r = true) → result.outcome.requeueAfter = none →
        ∃ c r, Finished result.releases c r ∧
          result.descriptor.status.activeRelease = r.name ∧
          result.descriptor.status.targetRelease = r.name ∧
          (r.info.isPersisted = true →
            result.descriptor.status.numDesired = r.status.numDesired) ∧
          ∀ (es : List Rollout.Event) (s : Rollout), (∀ e ∈ es, e.IsInternal) →
            s = Rollout.run ⟨result.descriptor, result.releases⟩ es → ∀ t, ∃ next,
              pass s.descriptor s.releases t = .ok next ∧
              next.releases = result.releases.modify c (·.sized s.descriptor.desiredInstances) ∧
              (r.info.isPersisted = true →
                next.descriptor.status.numDesired = r.status.numDesired)) ∧
      ∀ remaining, hold? d rs now = some remaining →
        result = ⟨⟨some remaining, false⟩, d, rs⟩ ∧
        (d.status.deployUpdatedAt ≤ now → ∀ t,
          (t < now + remaining →
            ∃ wait, hold? d rs t = some wait ∧ pass d rs t = .ok ⟨⟨some wait, false⟩, d, rs⟩) ∧
          (now + remaining ≤ t → Moves d rs t)) := by
  cases held : hold? d rs now with
  | some remaining =>
      refine ⟨_, pass_of_held nonempty held, fun _ asks => ?_, ?_⟩
      · cases asks
      · rintro _ ⟨⟩
        refine ⟨rfl, fun ordered t => ⟨fun before => ?_, (held_until held ordered t).2⟩⟩
        obtain ⟨wait, held'⟩ := (held_until held ordered t).1 before
        exact ⟨wait, held', pass_of_held nonempty held'⟩
  | none =>
      by_cases deployable : ∃ r ∈ rs, isDeployable r = true
      · obtain ⟨p, planned, passed⟩ :=
          Moves.exists_plan ⟨held, firstDeployable_isSome_iff.2 deployable⟩
        refine ⟨_, passed, fun _ last => ?_, by simp⟩
        obtain ⟨same, r, finished⟩ := finished_of_plan planned last
        obtain ⟨activeName, targetName, mirrored⟩ := names_of_finished planned same finished.here
        refine ⟨p.target, r, finished, activeName, targetName, mirrored, ?_⟩
        rintro es s internal rfl t
        obtain ⟨count, releases, still⟩ := finished_run (s := ⟨_, _⟩) finished internal
        obtain ⟨next, passed', releases', seen, -⟩ := still.pass_eq _ t
        refine ⟨next, passed', ?_, fun stored => seen.trans (if_pos stored)⟩
        rw [releases', releases, List.modify_modify_eq]
        rfl
      · have still : ¬ Moves d rs now := fun moves =>
          deployable (firstDeployable_isSome_iff.1 moves.2)
        obtain ⟨outcome, passed⟩ := pass_of_not_moves nonempty still
        exact ⟨_, passed, fun some_ => absurd some_ deployable, by simp⟩

namespace Sample

open Cutover.Sample

/-- A promoted release that reports five instances, and an older one to be drained. -/
def promoted : List Release :=
  [{ release "web-2" 20 .active 100 4 with status.numDesired := 5 }, release "web-1" 10 .none 0 2]

/-- Instances follow the load between one and eight. -/
def elastic : Descriptor := { descriptor 4 with spec.scale := ⟨1, 8, 0⟩ }

/-- The last movement was half a minute before. -/
def rested : Descriptor := { descriptor 4 with status.deployUpdatedAt := 970 }

/-- A pass finishes the rollout, and the next follows the count that it has seen; a promotion is
held for the other half of its minute. -/
theorem promoted_left_alone_and_superseded_held :
    (promoted ≠ [] ∧ ∃ result, pass elastic promoted 1000 = .ok result ∧
      result.outcome.requeueAfter = none ∧ result.releases.map (·.spec.numDesired) = [1, 0] ∧
      ∃ next, pass result.descriptor result.releases 5000 = .ok next ∧
        next.releases = result.releases.modify 0 (·.sized 5)) ∧
    superseded ≠ [] ∧ hold? rested superseded 1000 = some 30 ∧
      (∃ wait, hold? rested superseded 1029 = some wait) ∧ Moves rested superseded 1030 := by
  have nonempty : promoted ≠ [] := by simp [promoted]
  have nonempty' : superseded ≠ [] := by simp [superseded]
  constructor
  · obtain ⟨result, passed, done, -⟩ := no_work_left_without_requeue nonempty elastic 1000
    cases (show pass elastic promoted 1000 = .ok _ from rfl).symm.trans passed
    obtain ⟨c, r, finished, -, -, -, after⟩ := done ⟨_, List.mem_cons_self, rfl⟩ rfl
    obtain rfl : 0 = c := Option.some.inj ((show _ = some 0 from rfl).symm.trans finished.active)
    obtain ⟨next, passed', releases, -⟩ := after [] _ (by simp) rfl 5000
    exact ⟨nonempty, _, rfl, rfl, rfl, next, passed', releases⟩
  · obtain ⟨result, -, -, held⟩ := no_work_left_without_requeue nonempty' rested 1000
    obtain ⟨-, until_⟩ := held 30 rfl
    obtain ⟨wait, early, -⟩ := (until_ (by decide) 1029).1 (by decide)
    exact ⟨nonempty', rfl, ⟨wait, early⟩, (until_ (by decide) 1030).2 (by decide)⟩

end Sample

end Ramp
end Cutover
