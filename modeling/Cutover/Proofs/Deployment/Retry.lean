/-
# Cutover.Proofs.Deployment.Retry -- the points that later passes give out

A split gives out the traffic that the releases have.  A pass whose ramp moves makes that
100; one that is held, or finds no release to move to, publishes what is stored
(`Shares.of_run`).

So a wrong sum stays through any number of passes, each of which succeeds, until one of them
moves (`publishes_of_retries`).
-/
import Cutover.Proofs.Deployment.Agreement

namespace Cutover.Deployment

set_option autoImplicit false

open Pass Store

variable {s s' : Store} {d d' : Descriptor} {rs : List Release} {now total : Nat}
  {result : Ramp.Result}

instance (d : Descriptor) (rs : List Release) (now : Nat) : Decidable (Ramp.Moves d rs now) :=
  inferInstanceAs (Decidable (_ ∧ _))

/-! ## Points -/

/-- The releases stored for a descriptor have so many points of traffic, all of them with
active and target releases. -/
structure Shares (d : Descriptor) (total : Nat) (s : Store) : Prop where
  idle : Idle (stored s d)
  total : Ramp.totalTraffic (stored s d) = total

/-- The split of a descriptor gives out so many points. -/
def Publishes (d : Descriptor) (total : Nat) (s : Store) : Prop :=
  ∃ split, s.get .trafficSplits d.spec.target d.spec.app = some split ∧
    (split.spec.routes.map (·.weight)).sum = total

theorem shares_of_routed (routed : Ramp.Routed (stored s d)) : Shares d 100 s where
  idle := routed.idle
  total := (Ramp.totalTraffic_of_idle routed.idle).trans routed.whole

theorem Listed.idle (sound : s.Sound) (listed : Listed s d rs) (idle : Idle (stored s d)) :
    Idle rs := by
  intro r member notActive notTarget
  cases persisted : r.info.isPersisted with
  | false => exact (listed.fresh r member persisted).traffic
  | true =>
      have inside : r ∈ stored s d :=
        (mem_scan sound).2 ⟨listed.known r member persisted, listed.labelled r member⟩
      exact idle r inside notActive notTarget

/-- What the ramp makes of the points: all of them, if it moves. -/
theorem points_of_pass (sound : s.Sound) (listed : Listed s d rs) (shares : Shares d total s)
    (passed : Ramp.pass d rs now = .ok result) : Idle result.releases ∧
      Ramp.totalTraffic result.releases = if Ramp.Moves d rs now then 100 else total := by
  -- A pass that does not move hands on the list it was given.
  by_cases moves : Ramp.Moves d rs now
  · obtain ⟨p, planned, passed'⟩ := moves.exists_plan
    cases passed.symm.trans passed'
    have planned := Ramp.planOf?_sound planned
    rw [if_pos moves, Ramp.releases_carryOut planned]
    exact ⟨(Ramp.balanced_spread planned).idle, Ramp.totalTraffic_spread planned⟩
  · have ne : rs ≠ [] := by
      rintro rfl
      cases passed
    obtain ⟨outcome, passed'⟩ := Ramp.pass_of_not_moves ne moves
    cases passed.symm.trans passed'
    rw [if_neg moves]
    exact ⟨listed.idle sound shares.idle, listed.total.trans shares.total⟩

/-- **One pass.**  It publishes 100 points if its ramp moves, and else those that are stored; the
releases it leaves have the points that it has published. -/
theorem Shares.of_run {key : String} {action : Action} (shares : Shares d total s) (sound : s.Sound)
    (indexed : s.Indexed) (described : s.getByKey .descriptors key = some d)
    (done : run key now s = .ok action s') :
    Publishes d (if Ramp.Moves d (lineup s d) now then 100 else total) s' ∧
      Shares d (if Ramp.Moves d (lineup s d) now then 100 else total) s' := by
  obtain ⟨result, xs, passed, listed, carried⟩ := (leads_run sound indexed described now).of_ok done
  obtain ⟨idle, points⟩ := points_of_pass sound listed shares passed
  rw [← points]
  refine ⟨carried.published_total, fun r member => ?_, carried.stored_total idle⟩
  obtain ⟨gone, perm, -⟩ := carried.exists_gone
  exact idle_held carried.held idle r (perm.mem_iff.2 (List.mem_append_right _ member))

/-! ## Pass after pass -/

/-- A pass with the store and the descriptor that it reads and the store that it leaves. -/
structure Retry where
  start : Store
  descriptor : Descriptor
  now : Nat
  finish : Store

def Retry.Moves (r : Retry) : Prop :=
  Ramp.Moves r.descriptor (lineup r.start r.descriptor) r.now

instance (r : Retry) : Decidable r.Moves :=
  inferInstanceAs (Decidable (Ramp.Moves ..))

/-- It is a pass over the descriptor, whose application and target are still the same, and it
succeeds. -/
structure Retry.Succeeds (d : Descriptor) (r : Retry) : Prop where
  sound : r.start.Sound
  indexed : r.start.Indexed
  described : r.start.getByKey .descriptors d.key = some r.descriptor
  app : r.descriptor.spec.app = d.spec.app
  target : r.descriptor.spec.target = d.spec.target
  done : ∃ action, run d.key r.now r.start = .ok action r.finish

/-- Passes that succeed one after the other from a store on.  In between, others may write what
they like, except the traffic of the releases. -/
def Retries (d : Descriptor) : Store → List Retry → Prop
  | _, [] => True
  | s, r :: rest =>
      (∀ total, Shares d total s → Shares d total r.start) ∧ r.Succeeds d ∧ Retries d r.finish rest

theorem Retry.Succeeds.stored_eq {r : Retry} (succeeds : r.Succeeds d) (s : Store) :
    stored s r.descriptor = stored s d := by
  unfold stored
  rw [succeeds.app, succeeds.target]

theorem Retry.Succeeds.shares {r : Retry} (succeeds : r.Succeeds d)
    (shares : Shares d total r.start) : Publishes d (if r.Moves then 100 else total) r.finish ∧
      Shares d (if r.Moves then 100 else total) r.finish := by
  have same := succeeds.stored_eq
  obtain ⟨sound, indexed, described, app, target, action, done⟩ := succeeds
  have before : Shares r.descriptor total r.start := by
    constructor
    · rw [same]
      exact shares.idle
    · rw [same]
      exact shares.total
  obtain ⟨⟨split, found, points⟩, after⟩ := before.of_run sound indexed described done
  refine ⟨⟨split, ?_, points⟩, ?_, ?_⟩
  · rw [← app, ← target]
    exact found
  · rw [← same]
    exact after.idle
  · rw [← same]
    exact after.total

/-- A pass soon after the last movement leaves a promotion as it is. -/
theorem Retry.Succeeds.not_moves {r : Retry} (succeeds : r.Succeeds d) {active target : Release}
    (inside : active ∈ stored r.start d) (isActive : active.spec.role = .active)
    (inside' : target ∈ stored r.start d) (isTarget : target.spec.role = .target)
    (soon : r.now - r.descriptor.status.deployUpdatedAt < r.descriptor.readinessTimeout) :
    ¬ r.Moves := by
  obtain ⟨action, done⟩ := succeeds.done
  obtain ⟨-, -, -, listed, -⟩ :=
    (leads_run succeeds.sound succeeds.indexed succeeds.described r.now).of_ok done
  rw [← succeeds.stored_eq] at inside inside'
  exact Ramp.not_moves_of_promoting (Ramp.isPromoting_of_mem (listed.all active inside) isActive
    (listed.all target inside') isTarget) soon

/-- The points given out once some passes have succeeded. -/
def pointsAfter (total : Nat) (rs : List Retry) : Nat :=
  if ∃ r ∈ rs, r.Moves then 100 else total

theorem pointsAfter_cons (total : Nat) (r : Retry) (rs : List Retry) :
    pointsAfter total (r :: rs) = pointsAfter (if r.Moves then 100 else total) rs := by
  unfold pointsAfter
  simp only [List.mem_cons, exists_eq_or_imp]
  by_cases moved : r.Moves
  · simp [moved]
  · simp [moved]

theorem pointsAfter_of_still {rs : List Retry} (still : ∀ r ∈ rs, ¬ r.Moves) :
    pointsAfter total rs = total := by
  refine if_neg ?_
  rintro ⟨r, member, moved⟩
  exact still r member moved

/-- **Any number of passes.**  They publish the points that are stored until one of them moves, and
100 from then on. -/
theorem publishes_of_retries {rs : List Retry} (shares : Shares d total s)
    (retries : Retries d s rs) : ∀ (i : Nat) (r : Retry), rs[i]? = some r →
      Publishes d (pointsAfter total (rs.take (i + 1))) r.finish := by
  induction rs generalizing s total with
  | nil =>
      intro i r at_
      cases at_
  | cons q rest ih =>
      obtain ⟨quiet, succeeds, later⟩ := retries
      obtain ⟨published, shares'⟩ := succeeds.shares (quiet total shares)
      intro i r at_
      rw [List.take_succ_cons, pointsAfter_cons]
      cases i with
      | zero =>
          cases at_
          exact published
      | succ i => exact ih shares' later i r at_

end Cutover.Deployment
