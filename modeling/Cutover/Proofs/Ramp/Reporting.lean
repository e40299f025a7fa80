/-
# Cutover.Proofs.Ramp.Reporting -- which movements are reported

A pass that reports a change stamps the descriptor with its time, and the next step of a promotion
is paced by the stamp.  The pass takes what it reports from its candidate alone: that it is new, or
is given another role, traffic or count in its promotion (`Noticed`, `changed_iff`).  It gives
traffic and roles to all releases.

On a balanced list whose target has instances this is enough (`unshifted_of_unchanged`): what the
other releases lose or gain, the candidate gains or loses.  Every event of a rollout keeps such a
list as it is (`staffed_step`), so along every run every movement is reported.  A release that is
marked as bad takes its traffic out of the balance; the pass gives the traffic back to the active
release, which is then no new candidate, and reports nothing (`movement_unreported`).
-/
import Cutover.Proofs.Ramp.Pace

namespace Cutover

set_option autoImplicit false

namespace Ramp

variable {d : Descriptor} {rs : List Release} {now : Nat} {p : Plan}

/-! ## Movements and reports -/

/-- Some release has another role or other traffic than before. -/
def Shifts (rs rs' : List Release) : Prop :=
  ∃ (i : Nat) (before after : Release), rs[i]? = some before ∧ rs'[i]? = some after ∧
    (after.spec.role ≠ before.spec.role ∨ after.spec.traffic ≠ before.spec.traffic)

/-- The pass says that something moved, and the descriptor has its time. -/
def Result.Reports (result : Result) (now : Nat) : Prop :=
  result.outcome.changed = true ∧ result.descriptor.status.deployUpdatedAt = now

/-- What a pass looks at in its candidate: it becomes active without another, was not the target,
or moves itself.  It moves if its count goes to nothing where nothing is wanted, or if it is in
promotion and gets another role, traffic or count. -/
def Stirs (d : Descriptor) (rs : List Release) (c : Nat) (before after : Release) : Prop :=
  activeIndex rs = none ∨ targetIndex rs ≠ some c ∨
    (d.desiredInstances = 0 ∧ after.spec.numDesired ≠ before.spec.numDesired) ∨
    (0 < d.desiredInstances ∧ activeIndex rs ≠ some c ∧
      (after.spec.role ≠ before.spec.role ∨ after.spec.traffic ≠ before.spec.traffic ∨
        after.spec.numDesired ≠ before.spec.numDesired))

/-- The candidate of a pass stirs. -/
def Noticed (d : Descriptor) (rs rs' : List Release) : Prop :=
  ∃ (c : Nat) (before after : Release), Release.firstDeployable rs = some c ∧
    rs[c]? = some before ∧ rs'[c]? = some after ∧ Stirs d rs c before after

theorem switches_iff {c : Nat} : switches rs c = true ↔
    activeIndex rs = none ∨ targetIndex rs ≠ some c := by
  simp [switches]

/-- A plan reports a change for the sake of its candidate. -/
theorem Plan.Made.changed_iff {c : Nat} {r : Release} (made : Plan.Made d rs c r p)
    (at_ : rs[c]? = some r) (desired timeout now : Nat) :
    p.changed = true ↔ Stirs d rs c r (p.assign desired timeout now c r) := by
  rw [Stirs, ← or_assoc, ← switches_iff]
  by_cases switched : switches rs c = true
  · refine iff_of_true ?_ (.inl switched)
    cases made <;> simp [switched]
  · rw [role_assign, traffic_assign, numDesired_assign, if_pos made.target_eq.symm]
    have old : switches rs c = false := by simpa using switched
    cases made with
    | stopped zero => simp [zero, old, @eq_comm Nat 0]
    | steady positive own =>
        have active : activeIndex rs = some c := by
          refine own.resolve_left fun none_ => switched ?_
          exact switches_iff.2 (.inl none_)
        simp [old, active, Nat.ne_of_gt positive]
    | @ramping a positive active ne traffic raised given raise =>
        have target : targetIndex rs = some c := by
          by_contra other
          exact switched (switches_iff.2 (.inr other))
        have isTarget : r.spec.role = .target := isTarget_of_targetIndex active target ne at_
        have idle : d.desiredInstances ≠ 0 := Nat.ne_of_gt positive
        have rises : max r.spec.numDesired raised = r.spec.numDesired ↔
            ¬ r.spec.numDesired < raised := by omega
        by_cases whole : traffic = 100
        · simp [old, whole, active, ne, isTarget, positive]
        · simp [old, whole, active, ne, ne.symm, isTarget, positive, idle, rises, Plan.share,
            or_comm]

/-! ## Balanced lists with instances for the target -/

/-- The list is balanced, and its target has instances. -/
structure Staffed (rs : List Release) : Prop extends Balanced rs where
  staffed : ∀ r ∈ rs, r.spec.role = .target → 0 < r.spec.numDesired

/-- If the active release is its own target, no release has the role of a target. -/
theorem not_target_of_own {c : Nat} (active : activeIndex rs = some c)
    (target : targetIndex rs = some c) : ∀ r ∈ rs, r.spec.role ≠ .target := by
  intro r member isTarget
  obtain ⟨old, oldAt, isActive⟩ := activeIndex_spec active
  have promoting := isPromoting_of_mem (List.mem_of_getElem? oldAt) isActive member isTarget
  simp [isPromoting, active, target] at promoting

/-- A plan that reports no change keeps the active release and the target, and the target its
traffic. -/
theorem kept_of_unchanged (staffed : Staffed rs) {c : Nat} {r : Release} (at_ : rs[c]? = some r)
    (made : Plan.Made d rs c r p) (unchanged : p.changed = false) :
    activeIndex rs = some p.active ∧ targetIndex rs = some p.target ∧
      (p.active ≠ p.target → p.traffic = r.spec.traffic) := by
  by_cases same : p.active = p.target
  · have old : switches rs c = false := by
      cases made <;> simp_all
    obtain ⟨some_, target⟩ : activeIndex rs ≠ none ∧ targetIndex rs = some c := by
      simpa [switches] using old
    have active : activeIndex rs = some c := by
      cases made with
      | stopped zero =>
          -- where nothing is wanted a target loses its instances, which would be reported
          refine (targetIndex_spec target).resolve_right ?_
          rintro ⟨x, here, isTarget⟩
          obtain rfl : r = x := Option.some.inj (at_.symm.trans here)
          have running := staffed.staffed r (List.mem_of_getElem? at_) isTarget
          have none_ : r.spec.numDesired = 0 := by simpa [old] using unchanged
          omega
      | steady positive own => exact own.resolve_left some_
      | @ramping a positive active ne traffic raised given raise =>
          have whole : traffic = 100 := by
            by_contra part
            exact ne (by simpa [part] using same)
          simp [whole] at unchanged
    exact ⟨active.trans (congrArg some (made.target_eq.symm.trans same.symm)),
      target.trans (congrArg some made.target_eq.symm), fun ne => absurd same ne⟩
  · obtain ⟨active, target, traffic, -⟩ := made.of_unchanged same unchanged
    exact ⟨active, made.target_eq ▸ target, fun _ => traffic⟩

/-- On a balanced list the roles are where the positions say. -/
theorem role_iff (balanced : Balanced rs) {a t : Nat} (active : activeIndex rs = some a)
    (target : targetIndex rs = some t) {i : Nat} {r : Release} (at_ : rs[i]? = some r) :
    (r.spec.role = .active ↔ i = a) ∧ (r.spec.role = .target ↔ i = t ∧ t ≠ a) := by
  obtain ⟨old, oldAt, isActive⟩ := activeIndex_spec active
  have here : r.spec.role = .active ↔ i = a := by
    constructor
    · intro role
      exact index_unique (Nat.le_of_eq balanced.one_active) at_ oldAt (by simpa using role)
        (by simpa using isActive)
    · rintro rfl
      exact Option.some.inj (oldAt.symm.trans at_) ▸ isActive
  refine ⟨here, fun role => ?_, ?_⟩
  · have ne : t ≠ a := by
      rintro rfl
      exact not_target_of_own active target r (List.mem_of_getElem? at_) role
    rcases targetIndex_spec target with own | ⟨x, there, isTarget⟩
    · exact absurd (Option.some.inj (own.symm.trans active)) ne
    · exact ⟨index_unique balanced.one_target at_ there (by simpa using role)
        (by simpa using isTarget), ne⟩
  · rintro ⟨rfl, ne⟩
    exact isTarget_of_targetIndex active target (Ne.symm ne) at_

/-- The traffic of a balanced list is what the positions and the target's traffic say. -/
theorem traffic_eq_share (balanced : Balanced rs) (sound : p.Sound rs)
    (active : activeIndex rs = some p.active) (target : targetIndex rs = some p.target)
    {t : Release} (targetAt : rs[p.target]? = some t)
    (same : p.active ≠ p.target → p.traffic = t.spec.traffic) {i : Nat} {r : Release}
    (at_ : rs[i]? = some r) : r.spec.traffic = p.share i := by
  obtain ⟨active_iff, target_iff⟩ := role_iff balanced active target at_
  unfold Plan.share
  by_cases here : i = p.active
  · subst here
    have isActive := active_iff.2 rfl
    rw [if_pos rfl]
    -- the active release has all traffic, or what the target lacks
    by_cases one : p.active = p.target
    · have whole := balanced.whole
      rw [trafficOf_eq (Nat.le_of_eq balanced.one_active) (List.mem_of_getElem? at_) isActive,
        trafficOf_eq_zero fun x member isTarget =>
          absurd isTarget (not_target_of_own active (one ▸ target) x member)] at whole
      rw [if_pos one, sound.whole_iff.1 one]
      exact whole
    · have alone : ∀ j x, rs[j]? = some x → x.spec.role = .target → j ≠ p.target →
          x.spec.traffic = 0 := fun j x there isTarget other =>
        absurd ((role_iff balanced active target there).2.1 isTarget).1 other
      have whole := balanced.traffic_active at_ isActive targetAt one alone
      rw [if_neg one, same one]
      omega
  · rw [if_neg here]
    by_cases there : i = p.target
    · subst there
      rw [if_pos rfl, same (Ne.symm here), Option.some.inj (at_.symm.trans targetAt)]
    · rw [if_neg there]
      exact balanced.idle r (List.mem_of_getElem? at_) (mt active_iff.1 here)
        fun isTarget => there (target_iff.1 isTarget).1

/-- A plan that reports no change moves nothing, on a balanced list whose target has instances. -/
theorem unshifted_of_unchanged (staffed : Staffed rs) (planned : planOf? d rs = some p)
    (unchanged : p.changed = false) (desired timeout : Nat) :
    ¬ Shifts rs (p.spread desired timeout now rs) := by
  rintro ⟨i, before, after, at_, at', moved⟩
  have sound := planOf?_sound planned
  obtain ⟨c, r, -, here, -, made⟩ := planOf?_made planned
  obtain ⟨active, target, same⟩ := kept_of_unchanged staffed here made unchanged
  obtain ⟨active_iff, target_iff⟩ := role_iff staffed.toBalanced active target at_
  rw [spread_getElem?, at_] at at'
  obtain rfl := Option.some.inj at'
  rcases moved with role | traffic
  · refine role ?_
    rw [mark_spec, role_assign]
    split_ifs with isActive isTarget isBad
    · exact (active_iff.2 isActive).symm
    · exact (target_iff.2 ⟨isTarget, fun e => isActive (isTarget.trans e)⟩).symm
    · exact isBad.symm
    · cases role : before.spec.role with
      | none => rfl
      | active => exact absurd (active_iff.1 role) isActive
      | target => exact absurd (target_iff.1 role).1 isTarget
      | bad => exact absurd role isBad
  · refine traffic ?_
    rw [mark_spec, traffic_assign]
    have targetAt : rs[p.target]? = some r := made.target_eq ▸ here
    exact (traffic_eq_share staffed.toBalanced sound active target targetAt same at_).symm

theorem reports_of_changed (changed : p.changed = true) : (p.carryOut d rs now).Reports now := by
  refine ⟨changed, ?_⟩
  rw [deployUpdatedAt_carryOut, changed]
  rfl

/-- What a plan leaves is staffed. -/
theorem staffed_spread (planned : planOf? d rs = some p) (desired timeout : Nat) :
    Staffed (p.spread desired timeout now rs) := by
  refine ⟨balanced_spread (planOf?_sound planned), fun r member isTarget => ?_⟩
  obtain ⟨i, at_⟩ := List.getElem?_of_mem member
  obtain ⟨there, ne⟩ := (target_spread_iff at_).1 isTarget
  obtain ⟨before, -, rfl⟩ := exists_of_spread_getElem? at_
  obtain ⟨c, x, -, -, -, made⟩ := planOf?_made planned
  rw [mark_spec, numDesired_assign, if_pos there]
  apply made.count_pos
  cases made with
  | stopped zero => exact absurd rfl ne
  | steady positive own => exact positive
  | ramping positive active other given raise => exact positive

/-- The counts of targets depend on the specifications alone. -/
theorem Staffed.of_specs {rs' : List Release} (staffed : Staffed rs) (balanced : Balanced rs')
    (same : ∀ r' ∈ rs', r'.spec.role = .target → ∃ r ∈ rs, r.spec = r'.spec) : Staffed rs' := by
  refine ⟨balanced, fun r' member isTarget => ?_⟩
  obtain ⟨r, inside, spec⟩ := same r' member isTarget
  rw [← spec] at isTarget ⊢
  exact staffed.staffed r inside isTarget

theorem exists_spec_of_mem_modify {i : Nat} {f : Release → Release}
    (frame : ∀ r, (f r).spec = r.spec) {r' : Release} (member : r' ∈ rs.modify i f) : ∃ r ∈ rs, r.spec = r'.spec := by
  obtain ⟨j, at_⟩ := List.getElem?_of_mem member
  rw [List.getElem?_modify] at at_
  obtain ⟨r, here, rfl⟩ := Option.map_eq_some_iff.1 at_
  refine ⟨r, List.mem_of_getElem? here, ?_⟩
  split
  · exact (frame r).symm
  · rfl

theorem staffed_step (s : Rollout) (e : Rollout.Event) (allowed : e.Allowed s)
    (staffed : Staffed s.releases) : Staffed (s.step e).releases := by
  have balanced := balanced_step s e allowed staffed.toBalanced
  cases e with
  | pass now =>
      rcases s.releases_step_pass now with same | ⟨p, planned, spread⟩
      · rwa [same]
      · rw [spread]
        exact staffed_spread planned _ _
  | observe i status =>
      exact staffed.of_specs balanced fun r member _ =>
        exists_spec_of_mem_modify (f := fun r => { r with status }) (fun _ => rfl) member
  | describe d => exact staffed
  | add r =>
      refine staffed.of_specs balanced fun x member isTarget => ?_
      rcases List.mem_cons.1 member with rfl | member
      · rw [allowed.role] at isTarget
        cases isTarget
      · exact ⟨x, member, rfl⟩
  | store i info =>
      exact staffed.of_specs balanced fun r member _ =>
        exists_spec_of_mem_modify (f := fun r => { r with info }) (fun _ => rfl) member
  | drop i =>
      exact staffed.of_specs balanced fun r member _ => ⟨r, List.mem_of_mem_eraseIdx member, rfl⟩
  | arrange rs =>
      exact staffed.of_specs balanced fun r member _ => ⟨r, allowed.mem_iff.1 member, rfl⟩

/-! ## Which movements are reported -/

theorem not_shifts_self (rs : List Release) : ¬ Shifts rs rs := by
  rintro ⟨i, before, after, at_, at', moved⟩
  obtain rfl : before = after := Option.some.inj (at_.symm.trans at')
  simp at moved

theorem reports_iff_noticed (nonempty : rs ≠ []) (d : Descriptor) (now : Nat) :
    ∃ result, pass d rs now = .ok result ∧
      (Shifts rs result.releases → (result.Reports now ↔ Noticed d rs result.releases)) := by
  obtain ⟨result, passed, ⟨-, still⟩ | ⟨p, -, planned, rfl⟩⟩ := pass_cases nonempty d now
  · exact ⟨result, passed, fun shifts => absurd (still ▸ shifts) (not_shifts_self rs)⟩
  · refine ⟨_, passed, fun _ => ?_⟩
    obtain ⟨c, r, first, at_, -, made⟩ := planOf?_made planned
    have after : (p.carryOut d rs now).releases[c]? =
        some (p.mark c (p.assign d.desiredInstances d.readinessTimeout now c r)) :=
      getElem?_carryOut (planOf?_sound planned) at_
    have changed := made.changed_iff at_ d.desiredInstances d.readinessTimeout now
    constructor
    · exact fun reports => ⟨c, r, _, first, at_, after, changed.1 reports.1⟩
    · rintro ⟨c', before, after', first', at_', after_', noticed⟩
      obtain rfl : c = c' := Option.some.inj (first.symm.trans first')
      obtain rfl : r = before := Option.some.inj (at_.symm.trans at_')
      obtain rfl := Option.some.inj (after.symm.trans after_')
      exact reports_of_changed (changed.2 noticed)

/-- On a balanced list whose target has instances a pass reports what it moves. -/
theorem reports_of_staffed (staffed : Staffed rs) (d : Descriptor) (now : Nat) :
    ∃ result, pass d rs now = .ok result ∧ (Shifts rs result.releases → result.Reports now) := by
  have nonempty : rs ≠ [] := by
    rintro rfl
    exact absurd staffed.one_active (by decide)
  obtain ⟨result, passed, ⟨-, still⟩ | ⟨p, -, planned, rfl⟩⟩ := pass_cases nonempty d now
  · exact ⟨result, passed, fun shifts => absurd (still ▸ shifts) (not_shifts_self rs)⟩
  · refine ⟨_, passed, fun shifts => reports_of_changed ?_⟩
    by_contra unchanged
    rw [releases_carryOut (planOf?_sound planned)] at shifts
    exact unshifted_of_unchanged staffed planned (Bool.eq_false_iff.2 unchanged) _ _ shifts

/-- **Which movements are reported.**  A pass that moves the role or the traffic of any release
reports and stamps it exactly if its candidate is new or moves itself.  If the list is balanced and
its target has instances, every pass of every run from there reports and stamps every movement. -/
theorem movement_reported_iff (s : Rollout) (nonempty : s.releases ≠ []) (now : Nat) :
    (∃ result, pass s.descriptor s.releases now = .ok result ∧
      (Shifts s.releases result.releases →
        (result.Reports now ↔ Noticed s.descriptor s.releases result.releases))) ∧
    (Staffed s.releases → ∀ es, s.Permits es → ∀ v ∈ s.visits es, ∃ result,
      pass v.state.descriptor v.state.releases v.now = .ok result ∧
      (Shifts v.state.releases result.releases → result.Reports v.now)) := by
  refine ⟨reports_iff_noticed nonempty s.descriptor now, ?_⟩
  intro staffed es permits v visited
  have through := (Rollout.permits_iff_throughout s es).1 permits
  have met := Rollout.forall_visits (P := fun s => Staffed s.releases) staffed_step through staffed
  exact reports_of_staffed (met v visited).1 v.state.descriptor v.now

namespace Sample

open Cutover.Sample

/-- A release is cut while another is active. -/
def renewed : List Release := [release "web-2" 20 .none 0 0, release "web-1" 10 .active 100 4]

theorem renewed_and_promotion_reported :
    (renewed ≠ [] ∧ ∃ result, pass (descriptor 4) renewed 1000 = .ok result ∧
      Shifts renewed result.releases ∧ result.Reports 1000) ∧
    settled.releases ≠ [] ∧ Staffed settled.releases ∧ settled.Permits promotion ∧
      ∀ v ∈ settled.visits promotion, ∃ result,
        pass v.state.descriptor v.state.releases v.now = .ok result ∧
        (Shifts v.state.releases result.releases → result.Reports v.now) := by
  have nonempty : renewed ≠ [] := by simp [renewed]
  have nonempty' : settled.releases ≠ [] := by simp [settled]
  have staffed : Staffed settled.releases := ⟨by decide, by decide⟩
  have permits : settled.Permits promotion :=
    ⟨⟨rfl, rfl, rfl⟩, trivial, trivial, trivial, trivial, trivial⟩
  refine ⟨⟨nonempty, ?_⟩, nonempty', staffed, permits,
    (movement_reported_iff settled nonempty' 100).2 staffed promotion permits⟩
  obtain ⟨result, passed, reports⟩ := (movement_reported_iff ⟨descriptor 4, renewed⟩ nonempty 1000).1
  cases (show pass (descriptor 4) renewed 1000 = .ok _ from rfl).symm.trans passed
  refine ⟨_, rfl, ?shifts, (reports ?shifts).2 ?noticed⟩
  case shifts => exact ⟨0, _, _, rfl, rfl, .inl (by decide)⟩
  case noticed => exact ⟨0, _, _, by decide, rfl, rfl, .inr (.inl (by decide))⟩

/-- The target had a quarter of the traffic when it was marked as bad. -/
def recalled : List Release := [release "web-2" 20 .bad 25 2, release "web-1" 10 .active 75 3]

/-- The last movement was a hundred seconds before. -/
def paced : Descriptor := { descriptor 4 with status.deployUpdatedAt := 900 }

end Sample

/-- The active release takes back the traffic of a target that was marked as bad, and the pass
neither reports nor stamps it. -/
theorem movement_unreported : Sample.recalled ≠ [] ∧
    ∃ result, pass Sample.paced Sample.recalled 1000 = .ok result ∧
      Shifts Sample.recalled result.releases ∧
      result.releases.map (·.spec.traffic) = [0, 100] ∧ result.outcome.changed = false ∧
      result.descriptor.status.deployUpdatedAt = 900 :=
  ⟨by simp [Sample.recalled], _, rfl, ⟨0, _, _, rfl, rfl, .inr (by decide)⟩, rfl, rfl, rfl⟩

end Ramp
end Cutover
