/-
# Cutover.Proofs.Ramp.Rest -- a rollout at rest

Where the active release is its own target and the candidate (`Unopposed`), a pass is never held
and keeps it as active and target (`Unopposed.pass_eq`).  It gives it the descriptor's count and
takes over the count that it has seen (`numDesired_carryOut_of_kept`).

So it is where the newest deployable release is the first that is active and no other release is a
target (`Ahead`).  A rollout is at rest if, besides, no other release is active (`AtRest`).
-/
import Cutover.Proofs.Ramp.Balance
import Cutover.Proofs.Release.Recency

namespace Cutover

set_option autoImplicit false

/-! ## Releases that do not stand in the way -/

namespace Release

/-- A release has no part in the split and is older than another, if it is deployable. -/
structure Behind (r o : Release) : Prop where
  not_active : o.spec.role ≠ .active
  not_target : o.spec.role ≠ .target
  older : isDeployable o = true → recency r o = .lt

/-- A release is no target, and older than another if it is deployable. -/
structure Outdated (r o : Release) : Prop where
  not_target : o.spec.role ≠ .target
  older : isDeployable o = true → recency r o = .lt

theorem Behind.outdated {r o : Release} (behind : Behind r o) : Outdated r o :=
  ⟨behind.not_target, behind.older⟩

end Release

namespace Ramp

variable {d : Descriptor} {rs : List Release} {c : Nat} {r : Release} {now : Nat}

/-! ## An active release without a rival -/

/-- The release at one position is active, is its own target and is the candidate. -/
structure Unopposed (rs : List Release) (c : Nat) : Prop where
  active : activeIndex rs = some c
  target : targetIndex rs = some c
  first : Release.firstDeployable rs = some c

/-- The plan that keeps a release as active and target and gives it the descriptor's count. -/
def Plan.keep (d : Descriptor) (c : Nat) (r : Release) : Plan where
  active := c
  target := c
  traffic := 100
  count := d.desiredInstances
  again := false
  changed := d.desiredInstances = 0 && r.spec.numDesired != 0

namespace Unopposed

variable (unopposed : Unopposed rs c)

include unopposed

/-- No promotion is under way, so no pass is held. -/
theorem hold?_eq : hold? d rs now = none := by
  have settled : isPromoting rs = false := by
    simp [isPromoting, unopposed.active, unopposed.target]
  simp [hold?, settled]

theorem planOf?_eq (here : rs[c]? = some r) : planOf? d rs = some (.keep d c r) := by
  have planned : planOf? d rs = some (plan d (activeIndex rs) (targetIndex rs) c r) := by
    simp [planOf?, unopposed.first, here]
  have same : switches rs c = false := by simp [switches, unopposed.active, unopposed.target]
  have made : Plan.Made d rs c r (plan d (activeIndex rs) (targetIndex rs) c r) := plan_made c r
  rw [planned]
  generalize plan d (activeIndex rs) (targetIndex rs) c r = p at made
  cases made with
  | stopped zero => simp [Plan.keep, zero, same]
  | steady positive own => simp [Plan.keep, Nat.ne_of_gt positive, same]
  | ramping positive active ne given raise =>
      exact absurd (Option.some.inj (active.symm.trans unopposed.active)) ne

theorem pass_eq (here : rs[c]? = some r) :
    pass d rs now = .ok ((Plan.keep d c r).carryOut d rs now) :=
  pass_of_planOf? unopposed.hold?_eq (unopposed.planOf?_eq here)

end Unopposed

/-- A plan whose active release is the target takes over the count that it has seen, once it is
stored. -/
theorem numDesired_carryOut_of_kept {p : Plan} (sound : p.Sound rs) (same : p.active = p.target)
    (here : rs[p.active]? = some r) : (p.carryOut d rs now).descriptor.status.numDesired =
      if r.info.isPersisted then r.status.numDesired else d.status.numDesired := by
  let after := p.mark p.active (p.assign d.desiredInstances d.readinessTimeout now p.active r)
  have at_ : (p.settle d.desiredInstances d.readinessTimeout now rs)[p.active]? = some after := by
    rw [settle_eq_spread sound, spread_getElem?, here]
    rfl
  have persisted : after.info.isPersisted = r.info.isPersisted := by
    show (p.assign d.desiredInstances d.readinessTimeout now p.active r).info.isPersisted = _
    rw [info_assign]
  have seen : after.status = r.status := by
    rw [mark_status, status_assign]
  unfold Plan.carryOut Plan.report
  simp only [at_, persisted, seen]
  by_cases stored : r.info.isPersisted = true
  · rw [if_pos ⟨same, stored⟩, if_pos stored]
  · rw [if_neg fun h => stored h.2, if_neg stored]

/-! ## Rest -/

/-- The release at one position is active and all others are behind it. -/
structure AtRest (rs : List Release) (c : Nat) (r : Release) : Prop where
  here : rs[c]? = some r
  active : r.spec.role = .active
  others : ∀ i o, rs[i]? = some o → i ≠ c → Release.Behind r o

/-- The release at one position is the first that is active, and all others are outdated. -/
structure Ahead (rs : List Release) (c : Nat) (r : Release) : Prop where
  here : rs[c]? = some r
  active : r.spec.role = .active
  first : ∀ i o, rs[i]? = some o → i < c → o.spec.role ≠ .active
  others : ∀ i o, rs[i]? = some o → i ≠ c → Release.Outdated r o

theorem AtRest.ahead (rest : AtRest rs c r) : Ahead rs c r where
  here := rest.here
  active := rest.active
  first i o at_ before := (rest.others i o at_ (Nat.ne_of_lt before)).not_active
  others i o at_ ne := (rest.others i o at_ ne).outdated

namespace Ahead

variable (ahead : Ahead rs c r)

include ahead

theorem eq_of_here {o : Release} (here : rs[c]? = some o) : o = r :=
  Option.some.inj (here.symm.trans ahead.here)

theorem activeIndex_eq : activeIndex rs = some c := by
  obtain ⟨lt, at_⟩ := List.getElem?_eq_some_iff.1 ahead.here
  refine List.findIdx?_eq_some_iff_getElem.2 ⟨lt, ?_, fun j before active => ?_⟩
  · rw [at_]
    exact decide_eq_true ahead.active
  · have there := List.getElem?_eq_getElem (Nat.lt_trans before lt)
    exact ahead.first j _ there before (of_decide_eq_true active)

theorem targetIndex_eq : targetIndex rs = some c := by
  have none_ : rs.findIdx? (·.spec.role = .target) = none := by
    refine List.findIdx?_eq_none_iff.2 fun o member => decide_eq_false ?_
    obtain ⟨i, at_⟩ := List.getElem?_of_mem member
    by_cases same : i = c
    · have here : rs[c]? = some o := same ▸ at_
      rw [ahead.eq_of_here here, ahead.active]
      decide
    · exact (ahead.others i o at_ same).not_target
  unfold targetIndex
  rw [none_, ahead.activeIndex_eq]
  rfl

theorem firstDeployable_eq : Release.firstDeployable rs = some c := by
  refine Release.firstDeployable_eq_some_iff.2
    ⟨r, ahead.here, Release.isDeployable_of_active ahead.active, fun i o at_ deployable => ?_⟩
  by_cases other : i = c
  · subst other
    rw [ahead.eq_of_here at_]
    exact ⟨Release.not_isNewer_self r, fun lt => absurd lt (Nat.lt_irrefl _)⟩
  · have newer : Release.isNewer r o = true :=
      decide_eq_true ((ahead.others i o at_ other).older deployable)
    exact ⟨Release.not_isNewer_of_isNewer newer, fun _ => newer⟩

theorem unopposed : Unopposed rs c :=
  ⟨ahead.activeIndex_eq, ahead.targetIndex_eq, ahead.firstDeployable_eq⟩

/-- **A pass over a rollout with nothing to move.**  The descriptor takes over the count that the
release has seen. -/
theorem pass_eq_ok (d : Descriptor) (now : Nat) (accepted : r.info.isPersisted = true) :
    ∃ (p : Plan) (status : DescriptorStatus), pass d rs now = .ok (p.carryOut d rs now) ∧
      p.active = c ∧ p.target = c ∧ p.count = d.desiredInstances ∧
      (p.carryOut d rs now).releases = p.spread d.desiredInstances d.readinessTimeout now rs ∧
      (p.carryOut d rs now).descriptor = { d with status } ∧
      status.numDesired = r.status.numDesired := by
  have planned := ahead.unopposed.planOf?_eq (d := d) ahead.here
  have sound := planOf?_sound planned
  refine ⟨.keep d c r, _, ahead.unopposed.pass_eq ahead.here, rfl, rfl, rfl,
    releases_carryOut sound, rfl, ?_⟩
  exact (numDesired_carryOut_of_kept sound rfl ahead.here).trans (if_pos accepted)

end Ahead

end Ramp
end Cutover
