/-
# Cutover.Proofs.Ramp.GivenUp -- a release that was given up is not picked up again

A release is given up once it has failed and lost its role, or once somebody has marked it as bad.
That it stays so is nobody's job alone.  The ramp gives roles, and never to a release that may not
be deployed; health sets states, and clears neither the failure of a release without a role
nor the state of a bad one.  So each of the two relies on what the other leaves (`Declines`), and
the order in which they come does not matter (`given_up_for_good`).

A release is told from the others by its position, which moves when a release is put before it
(`Upkeep.follow`).
-/
import Cutover.Proofs.Ramp.Rollout
import Cutover.Release.Health

namespace Cutover

set_option autoImplicit false

namespace Release

/-- A release that failed and has no role, or is bad. -/
def IsGivenUp (r : Release) : Prop :=
  r.spec.role = .none ∧ r.status.state = .failed ∨ r.spec.role = .bad

theorem IsGivenUp.not_deployable {r : Release} (given : r.IsGivenUp) : isDeployable r = false := by
  unfold isDeployable
  rcases given with ⟨role, state⟩ | role
  · simp [role, state]
  · simp [role]

/-- What may become of a release that was given up: it keeps its role, gets no traffic and no
instances, and stays failed or bad. -/
structure Declines (r r' : Release) : Prop where
  role : r'.spec.role = r.spec.role
  traffic : r'.spec.traffic ≤ r.spec.traffic
  numDesired : r'.spec.numDesired ≤ r.spec.numDesired
  failed : r.spec.role = .none → r.status.state = .failed → r'.status.state = .failed
  bad : r.spec.role = .bad → r.status.state = .bad → r'.status.state = .bad

namespace Declines

variable {r r' r'' : Release}

theorem refl (r : Release) : Declines r r :=
  ⟨rfl, Nat.le_refl _, Nat.le_refl _, fun _ same => same, fun _ same => same⟩

theorem trans (first : Declines r r') (second : Declines r' r'') : Declines r r'' where
  role := second.role.trans first.role
  traffic := Nat.le_trans second.traffic first.traffic
  numDesired := Nat.le_trans second.numDesired first.numDesired
  failed role state := second.failed (first.role.trans role) (first.failed role state)
  bad role state := second.bad (first.role.trans role) (first.bad role state)

theorem isGivenUp (declines : Declines r r') (given : r.IsGivenUp) : r'.IsGivenUp := by
  rcases given with ⟨role, state⟩ | role
  · exact .inl ⟨declines.role.trans role, declines.failed role state⟩
  · exact .inr (declines.role.trans role)

end Declines

/-! ## A health step -/

variable (counts : ObservedCounts) (diagnosis : Option Diagnosis)

/-- A failed release without a role stays failed whatever is observed. -/
theorem nextState_of_failed {r : Release} (role : r.spec.role = .none)
    (state : r.status.state = .failed) : r.nextState counts diagnosis = .failed := by
  unfold Object.nextState
  exact if_pos ⟨state, role⟩

/-- A bad release is in the bad state whatever is observed. -/
theorem nextState_of_bad {r : Release} (role : r.spec.role = .bad) :
    r.nextState counts diagnosis = .bad := by
  unfold Object.nextState ReleaseSpec.stateFor
  simp [role]

/-- A release after a health step. -/
def checked (r : Release) (now : Nat) : Release :=
  { r with status := r.nextStatus counts diagnosis now }

theorem declines_checked (r : Release) (now : Nat) : Declines r (checked counts diagnosis r now) where
  role := rfl
  traffic := Nat.le_refl _
  numDesired := Nat.le_refl _
  failed role state := nextState_of_failed counts diagnosis role state
  bad role _ := nextState_of_bad counts diagnosis role

end Release

/-! ## A pass of the ramp -/

namespace Ramp

variable {d : Descriptor} {rs : List Release} {now : Nat} {p : Plan}

/-- The ramp gives a role to releases that may be deployed only. -/
theorem deployable_of_cast (planned : planOf? d rs = some p) {i : Nat} {r : Release}
    (at_ : rs[i]? = some r) (cast_ : i = p.active ∨ i = p.target) :
    Release.isDeployable r = true := by
  obtain ⟨c, x, -, at_c, deployable, made⟩ := planOf?_made planned
  have candidate : i = c → Release.isDeployable r = true := by
    rintro rfl
    obtain rfl : r = x := Option.some.inj (at_.symm.trans at_c)
    exact deployable
  cases made with
  | stopped zero => exact candidate (or_self_iff.1 cast_)
  | steady positive own => exact candidate (or_self_iff.1 cast_)
  | @ramping a positive active ne traffic raised given raise =>
      rcases cast_ with here | here
      · simp only at here
        split at here
        · exact candidate here
        · obtain ⟨old, at_a, role⟩ := activeIndex_spec active
          rw [← here, at_] at at_a
          exact Release.isDeployable_of_active (Option.some.inj at_a ▸ role)
      · exact candidate here

/-- A plan takes traffic and perhaps instances from a release that was given up. -/
theorem declines_spread (planned : planOf? d rs = some p) {i : Nat} {r : Release}
    (at_ : rs[i]? = some r) (given : r.IsGivenUp) (desired timeout : Nat) :
    Release.Declines r (p.mark i (p.assign desired timeout now i r)) := by
  have out : i ≠ p.active ∧ i ≠ p.target := not_or.1 fun cast_ =>
    Bool.false_ne_true (given.not_deployable.symm.trans (deployable_of_cast planned at_ cast_))
  constructor
  · rw [mark_spec, role_assign, if_neg out.1, if_neg out.2]
    rcases given with ⟨role, -⟩ | role <;> simp [role]
  · rw [mark_spec, traffic_assign]
    unfold Plan.share
    rw [if_neg out.1, if_neg out.2]
    exact Nat.zero_le _
  · rw [mark_spec, numDesired_assign, if_neg out.2, if_neg out.1]
    split
    · exact Nat.zero_le _
    · exact Nat.le_refl _
  · intro _ state
    rwa [mark_status, status_assign]
  · intro _ state
    rwa [mark_status, status_assign]

end Ramp

/-! ## Runs -/

/-- What happens to a descriptor's releases between being cut and being removed. -/
inductive Upkeep where
  /-- A pass of the ramp at a time. -/
  | pass (now : Nat)
  /-- The descriptor is edited. -/
  | describe (d : Descriptor)
  /-- A health step of the release at a position, with what it observes. -/
  | check (position : Nat) (counts : ObservedCounts) (diagnosis : Option Diagnosis) (now : Nat)
  /-- A release comes to stand at a position. -/
  | add (position : Nat) (r : Release)

namespace Upkeep

/-- Where the release at a position stands afterwards. -/
def follow : Upkeep → Nat → Nat
  | add position _, i => if position ≤ i then i + 1 else i
  | _, i => i

/-- Whether it is a health step of the release at a position. -/
def Checks : Upkeep → Nat → Prop
  | check position _ _ _, i => position = i
  | _, _ => False

end Upkeep

namespace Rollout

def tend (s : Rollout) : Upkeep → Rollout
  | .pass now => s.step (.pass now)
  | .describe d => s.step (.describe d)
  | .check i counts diagnosis now =>
      { s with releases := s.releases.modify i fun r => r.checked counts diagnosis now }
  | .add i r => { s with releases := s.releases.insertIdx i r }

def tended (s : Rollout) (us : List Upkeep) : Rollout := us.foldl tend s

end Rollout

namespace Upkeep

/-- Where the release at a position stands after a run. -/
def followAll (us : List Upkeep) (i : Nat) : Nat := us.foldl (fun i u => u.follow i) i

/-- Whether a run has a health step of the release at a position. -/
def ChecksIn : List Upkeep → Nat → Prop
  | [], _ => False
  | u :: rest, i => u.Checks i ∨ ChecksIn rest (u.follow i)

end Upkeep

namespace Rollout

variable {s : Rollout} {i : Nat} {r : Release}

/-- A release is followed past one that comes to stand before it. -/
theorem getElem?_tend_add (s : Rollout) (position : Nat) (new : Release) (i : Nat) :
    (s.tend (.add position new)).releases[(Upkeep.add position new).follow i]? =
      s.releases[i]? := by
  show (s.releases.insertIdx position new)[if position ≤ i then i + 1 else i]? = _
  rw [List.getElem?_insertIdx]
  by_cases before : position ≤ i
  · rw [if_pos before, if_neg (by omega), if_neg (by omega)]
    rfl
  · rw [if_neg before, if_pos (by omega)]

/-- **One step.** -/
theorem declines_tend (at_ : s.releases[i]? = some r) (given : r.IsGivenUp) (u : Upkeep) :
    ∃ r', (s.tend u).releases[u.follow i]? = some r' ∧ r.Declines r' ∧
      (r.spec.role = .bad → u.Checks i → r'.status.state = .bad) := by
  cases u with
  | pass now =>
      show ∃ r', (s.step (.pass now)).releases[i]? = some r' ∧ _
      rcases releases_step_pass s now with same | ⟨p, planned, spread⟩
      · rw [same]
        exact ⟨r, at_, .refl r, fun _ checks => checks.elim⟩
      · rw [spread, Ramp.spread_getElem?, at_]
        exact ⟨_, rfl, Ramp.declines_spread planned at_ given _ _, fun _ checks => checks.elim⟩
  | describe d => exact ⟨r, at_, .refl r, fun _ checks => checks.elim⟩
  | check position counts diagnosis now =>
      show ∃ r', (s.releases.modify position _)[i]? = some r' ∧ _
      rw [List.getElem?_modify, at_]
      by_cases here : position = i
      · simp only [here, if_true]
        exact ⟨_, rfl, Release.declines_checked counts diagnosis r now,
          fun role _ => Release.nextState_of_bad counts diagnosis role⟩
      · simp only [here, if_false]
        exact ⟨r, rfl, .refl r, fun _ checks => absurd checks here⟩
  | add position new =>
      exact ⟨r, (getElem?_tend_add s position new i).trans at_, .refl r,
        fun _ checks => checks.elim⟩

/-- **A run.**  What every step lets become of a release that was given up, all steps do. -/
theorem declines_tended (at_ : s.releases[i]? = some r) (given : r.IsGivenUp) (us : List Upkeep) :
    ∃ r', (s.tended us).releases[Upkeep.followAll us i]? = some r' ∧ r.Declines r' ∧
      (r.spec.role = .bad → Upkeep.ChecksIn us i → r'.status.state = .bad) := by
  induction us generalizing s i r with
  | nil => exact ⟨r, at_, .refl r, fun _ checks => checks.elim⟩
  | cons u rest ih =>
      obtain ⟨mid, at_mid, first, seen⟩ := declines_tend at_ given u
      obtain ⟨r', at_', second, seen'⟩ := ih at_mid (first.isGivenUp given)
      refine ⟨r', at_', first.trans second, fun role checks => ?_⟩
      have role_mid := first.role.trans role
      rcases checks with now | later
      · exact second.bad role_mid (seen role now)
      · exact seen' role_mid later

/-- **A release that was given up is not picked up again.**  Whatever passes, edits of the
descriptor, health steps and new releases come, in any order: a release that failed and has no role
keeps both, and a bad one stays bad, from its next health step on in its state too.  From any moment
to any later one its traffic and its count do not rise. -/
theorem given_up_for_good (at_ : s.releases[i]? = some r) (given : r.IsGivenUp)
    (earlier later : List Upkeep) :
    ∃ x y, (s.tended earlier).releases[Upkeep.followAll earlier i]? = some x ∧
      (s.tended (earlier ++ later)).releases[Upkeep.followAll (earlier ++ later) i]? = some y ∧
      y.spec.role = r.spec.role ∧
      y.spec.traffic ≤ x.spec.traffic ∧ x.spec.traffic ≤ r.spec.traffic ∧
      y.spec.numDesired ≤ x.spec.numDesired ∧ x.spec.numDesired ≤ r.spec.numDesired ∧
      (r.spec.role = .none → y.status.state = .failed) ∧
      (r.spec.role = .bad → r.status.state = .bad ∨ Upkeep.ChecksIn (earlier ++ later) i →
        y.status.state = .bad) := by
  obtain ⟨x, at_x, first, -⟩ := declines_tended at_ given earlier
  obtain ⟨y, at_y, second, -⟩ := declines_tended at_x (first.isGivenUp given) later
  obtain ⟨z, at_z, whole, seen⟩ := declines_tended at_ given (earlier ++ later)
  have same : y = z := by
    rw [tended, Upkeep.followAll, List.foldl_append, List.foldl_append] at at_z
    exact Option.some.inj (at_y.symm.trans at_z)
  subst same
  refine ⟨x, y, at_x, at_z, whole.role, second.traffic, first.traffic, second.numDesired,
    first.numDesired, fun role => ?_, fun role known => known.elim (whole.bad role) (seen role)⟩
  rcases given with ⟨-, state⟩ | bad
  · exact whole.failed role state
  · rw [bad] at role
    cases role

end Rollout

namespace Sample

open Rollout

def marked (state : ReleaseState) (r : Release) : Release :=
  { r with status := { r.status with state } }

/-- The newest release is bad, the one before it failed as the target, the oldest is active. -/
def abandoned : Rollout :=
  ⟨descriptor 4,
    [release "web-3" 300 .bad 0 2, marked .failed (release "web-2" 200 .none 0 2),
      marked .released (release "web-1" 100 .active 100 4)]⟩

/-- Time passes, instances come and go, a release is added in front, and a diagnosis comes late. -/
def later : List Upkeep :=
  [.pass 1000, .check 1 ⟨2, 2, 2⟩ none 1010, .add 0 (release "web-4" 400 .none 0 0), .pass 2000,
    .check 1 ⟨2, 0, 0⟩ (some ⟨[], true⟩) 2010, .describe (descriptor 8), .pass 9000]

theorem abandoned_not_picked_up :
    (∃ x y, (abandoned.tended []).releases[1]? = some x ∧
      (abandoned.tended later).releases[2]? = some y ∧ y.spec.role = .none ∧
      y.spec.traffic ≤ x.spec.traffic ∧ y.status.state = .failed) ∧
    ∃ y, (abandoned.tended later).releases[1]? = some y ∧ y.spec.role = .bad ∧
      y.status.state = .bad := by
  constructor
  · obtain ⟨x, y, at_x, at_y, role, traffic, -, -, -, failed, -⟩ :=
      given_up_for_good (show abandoned.releases[1]? = some _ from rfl) (.inl ⟨rfl, rfl⟩) [] later
    exact ⟨x, y, at_x, at_y, role, traffic, failed rfl⟩
  · obtain ⟨x, y, -, at_y, role, -, -, -, -, -, bad⟩ :=
      given_up_for_good (show abandoned.releases[0]? = some _ from rfl) (.inr rfl) [] later
    exact ⟨y, at_y, role, bad rfl (.inr (.inr (.inr (.inr (.inr (.inl rfl))))))⟩

end Sample
end Cutover
