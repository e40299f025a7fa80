/-
# Cutover.Proofs.Ramp.Pace -- how fast a promotion may go

A pass that moves traffic stamps the descriptor with its time, and a later pass of the same
promotion is held for a readiness timeout from the stamp.  So the passes of a promotion that
give it traffic are a readiness timeout apart, and each gives it 25 points at most
(`Push.Paced`).  A timeout of zero holds nothing, and then only the 25 points are left.

From there on it is counting: between two passes of a promotion lie as many rises as
readiness timeouts, and one more (`Gain`, `promotion_rate_limited`).
-/
import Cutover.Proofs.Ramp.Promotion

namespace Cutover

set_option autoImplicit false

/-! ## What a run with one descriptor asks of an event -/

namespace Rollout

/-- The event is allowed, a pass finds instances wanted, and the descriptor keeps its ports,
its readiness timeout and the time of the last movement, which only passes write. -/
structure Event.Steady (timeout : Nat) (s : Rollout) (e : Event) : Prop where
  allowed : e.Allowed s
  wanted : ∀ now, e = .pass now → 0 < s.descriptor.desiredInstances
  described : ∀ d, e = .describe d → d.needsService = true ∧ d.readinessTimeout = timeout ∧
    d.status.deployUpdatedAt = s.descriptor.status.deployUpdatedAt

/-- The descriptor routes traffic and has a readiness timeout. -/
def Serves (timeout : Nat) (s : Rollout) : Prop :=
  s.descriptor.needsService = true ∧ s.descriptor.readinessTimeout = timeout

instance (timeout : Nat) (s : Rollout) : Decidable (s.Serves timeout) := by
  unfold Serves
  infer_instance

theorem serves_step {timeout : Nat} (s : Rollout) (e : Event) (steady : e.Steady timeout s)
    (serves : s.Serves timeout) : (s.step e).Serves timeout := by
  cases e with
  | pass now =>
      rcases s.step_pass now with same | ⟨-, p, -, stepped⟩
      · rwa [same]
      · rw [stepped]
        exact serves
  | describe d =>
      obtain ⟨service, waits, -⟩ := steady.described d rfl
      exact ⟨service, waits⟩
  | observe i status => exact serves
  | add r => exact serves
  | store i info => exact serves
  | drop i => exact serves
  | arrange rs => exact serves

/-- Only a pass stamps the descriptor. -/
theorem deployUpdatedAt_step {timeout : Nat} (s : Rollout) (e : Event) (quiet : e.time? = none)
    (steady : e.Steady timeout s) :
    (s.step e).descriptor.status.deployUpdatedAt = s.descriptor.status.deployUpdatedAt := by
  cases e with
  | pass now => cases quiet
  | describe d => exact (steady.described d rfl).2.2
  | observe i status => rfl
  | add r => rfl
  | store i info => rfl
  | drop i => rfl
  | arrange rs => rfl

end Rollout

namespace Ramp

open Rollout

variable {d : Descriptor} {rs : List Release} {now : Nat} {p : Plan} {timeout : Nat}

/-! ## One pass -/

theorem Routed.traffic_le (routed : Routed rs) {r : Release} (member : r ∈ rs) :
    r.spec.traffic ≤ 100 := by
  have whole := routed.whole
  by_cases active : r.spec.role = .active
  · exact routed.traffic_le_of_active member active
  · by_cases target : r.spec.role = .target
    · rw [trafficOf_eq routed.one_target member target] at whole
      omega
    · rw [routed.idle r member active target]
      exact Nat.zero_le _

/-- A pass that moves while another release than the active one is the target comes a
readiness timeout after the last movement, if there is one to wait for. -/
theorem le_of_moves (positive : 0 < d.readinessTimeout) (routed : Routed rs)
    (moves : Moves d rs now) {i : Nat} {r : Release} (at_ : rs[i]? = some r)
    (target : r.spec.role = .target) : d.status.deployUpdatedAt + d.readinessTimeout ≤ now := by
  obtain ⟨a, old, -, oldAt, isActive⟩ := routed.exists_active
  have promoting := isPromoting_of_mem (List.mem_of_getElem? oldAt) isActive
    (List.mem_of_getElem? at_) target
  have rested := mt (not_moves_of_promoting promoting) (not_not_intro moves)
  omega

theorem targetTraffic_le_add (service : d.needsService = true) {desired available previous : Nat} :
    targetTraffic d desired available previous ≤ previous + increment := by
  unfold targetTraffic stepPercent
  rw [if_pos service]
  omega

namespace Push

/-- The time of the last movement as the pass finds it, and as it leaves it. -/
def stamp (x : Push) : Nat := x.visit.state.descriptor.status.deployUpdatedAt

def stamped (x : Push) : Nat := x.visit.next.descriptor.status.deployUpdatedAt

/-- The pass gives the release in promotion a step of traffic at most and takes none; it stamps
its time if it gives any; and it gives none to a target that was stamped less than a readiness
timeout ago. -/
structure Paced (timeout : Nat) (x : Push) : Prop where
  rises : x.before.spec.traffic ≤ x.after.spec.traffic
  bounded : x.after.spec.traffic ≤ x.before.spec.traffic + increment
  kept : x.stamped = x.stamp ∨ x.stamped = x.visit.now
  stamps : x.after.spec.traffic ≠ x.before.spec.traffic → x.stamped = x.visit.now
  waits : 0 < timeout → x.before.spec.role = .target →
    x.after.spec.traffic ≠ x.before.spec.traffic → x.stamp + timeout ≤ x.visit.now

theorem paced {x : Push} (routed : Routed x.visit.state.releases) (here : x.Here)
    (pursues : x.Pursues) (positive : 0 < x.visit.desired)
    (serves : x.visit.state.Serves timeout) : x.Paced timeout := by
  obtain ⟨service, rfl⟩ := serves
  rcases x.still_or_steps routed here pursues fun _ => positive with
    ⟨still, same⟩ | ⟨moves, p, i, steps, at_, stepped, traffic⟩
  · have unmoved : x.after.spec.traffic = x.before.spec.traffic := by rw [same]
    refine ⟨Nat.le_of_eq unmoved.symm, by omega, .inl ?_, fun ne => absurd unmoved ne,
      fun _ _ ne => absurd unmoved ne⟩
    unfold stamped stamp
    rw [still]
  · have stamped_eq : x.stamped = if p.changed || x.stamp = 0 then x.visit.now else x.stamp := by
      unfold stamped
      rw [stepped, deployUpdatedAt_carryOut]
      rfl
    have le := routed.traffic_le (List.mem_of_getElem? at_)
    refine ⟨?_, ?_, ?_, fun ne => ?_,
      fun positive target _ => le_of_moves positive routed moves at_ target⟩
    · rw [traffic]
      exact le_targetTraffic le
    · rw [traffic]
      exact targetTraffic_le_add service
    · rw [stamped_eq]
      split
      · exact .inr rfl
      · exact .inl rfl
    · have given : p.traffic = x.after.spec.traffic := steps.traffic.trans traffic.symm
      have changed : p.changed = true := steps.moved (given ▸ ne)
      rw [stamped_eq, changed, Bool.true_or, if_pos rfl]

end Push

/-! ## From pass to pass -/

/-- What lies between a pass of a promotion and a later one or itself: time, and, if there is a
readiness timeout, rises that are so far apart, the last of them stamped. -/
structure Gain (timeout : Nat) (x y : Push) : Prop where
  ordered : x.visit.now ≤ y.visit.now
  kept : x.before.spec.traffic ≤ y.after.spec.traffic
  spaced : 0 < timeout → y.after.spec.traffic ≤ x.before.spec.traffic ∨
    ∃ rises, y.after.spec.traffic ≤ x.before.spec.traffic + increment * (rises + 1) ∧
      x.visit.now + rises * timeout ≤ y.stamped ∧ y.stamped ≤ y.visit.now

namespace Gain

variable {x y z : Push}

theorem refl (paced : x.Paced timeout) : Gain timeout x x := by
  refine ⟨Nat.le_refl _, paced.rises, fun _ => ?_⟩
  by_cases same : x.after.spec.traffic = x.before.spec.traffic
  · exact .inl (Nat.le_of_eq same)
  · have stamped := paced.stamps same
    refine .inr ⟨0, ?_, by omega, by omega⟩
    simpa using paced.bounded

/-- One more pass adds a rise a readiness timeout after the last one, or none. -/
theorem next (gain : Gain timeout x y) (paced : z.Paced timeout)
    (traffic : z.before.spec.traffic = y.after.spec.traffic) (stamp : z.stamp = y.stamped)
    (later : y.visit.now ≤ z.visit.now) (target : z.before.spec.role = .target) :
    Gain timeout x z := by
  obtain ⟨ordered, kept, spaced⟩ := gain
  have rises := paced.rises
  refine ⟨by omega, by omega, fun positive => ?_⟩
  -- Only a rise moves the stamp forward, and it comes a timeout after the stamp it finds.
  by_cases same : z.after.spec.traffic = z.before.spec.traffic
  · rcases spaced positive with none_ | ⟨n, bound, first, last⟩
    · exact .inl (by omega)
    · refine .inr ⟨n, by omega, ?_, ?_⟩
      · rcases paced.kept with e | e <;> omega
      · rcases paced.kept with e | e <;> omega
  · have stamped := paced.stamps same
    have waits := paced.waits positive target same
    have bounded := paced.bounded
    rcases spaced positive with none_ | ⟨n, bound, first, last⟩
    · exact .inr ⟨0, by omega, by omega, by omega⟩
    · refine .inr ⟨n + 1, ?_, ?_, by omega⟩
      · rw [Nat.mul_succ]
        omega
      · rw [Nat.succ_mul]
        omega

theorem le (gain : Gain timeout x y) (positive : 0 < timeout) :
    y.after.spec.traffic ≤
      x.before.spec.traffic + increment * (1 + (y.visit.now - x.visit.now) / timeout) := by
  rcases gain.spaced positive with none_ | ⟨n, bound, first, last⟩
  · omega
  · have fits : n ≤ (y.visit.now - x.visit.now) / timeout := by
      rw [Nat.le_div_iff_mul_le positive]
      omega
    have more : increment * (n + 1) ≤
        increment * (1 + (y.visit.now - x.visit.now) / timeout) :=
      Nat.mul_le_mul_left _ (by omega)
    omega

end Gain

/-- What the passes of a promotion have to do with one another. -/
structure Hands (x y : Push) : Prop where
  traffic : y.before.spec.traffic = x.after.spec.traffic
  stamp : y.stamp = x.stamped
  later : x.visit.now ≤ y.visit.now
  target : y.before.spec.role = .target

theorem gain_of_hands {xs : List Push} (paced : ∀ x ∈ xs, x.Paced timeout)
    (hands : xs.IsChain Hands) {i j : Nat} {x y : Push} (le : i ≤ j) (first : xs[i]? = some x)
    (last : xs[j]? = some y) : Gain timeout x y := by
  induction le generalizing y with
  | refl =>
      cases first.symm.trans last
      exact Gain.refl (paced x (List.mem_of_getElem? first))
  | @step j le ih =>
      obtain ⟨lt, rfl⟩ := List.getElem?_eq_some_iff.1 last
      have handed := List.isChain_iff_getElem.1 hands j lt
      have before : xs[j]? = some xs[j] := List.getElem?_eq_getElem (by omega)
      exact (ih before).next (paced _ (List.mem_of_getElem? last)) handed.traffic handed.stamp
        handed.later handed.target

/-- The passes of a promotion in a run with one descriptor. -/
theorem Promotion.paced_and_hands {s : Rollout} {es : List Event} {xs : List Push}
    (balanced : Balanced s.releases) (serves : s.Serves timeout)
    (steady : s.Throughout (Event.Steady timeout) es)
    (ordered : ((s.visits es).map (·.now)).Pairwise (· ≤ ·))
    (promotion : Promotion (s.visits es) xs) :
    (∀ x ∈ xs, x.Paced timeout) ∧ xs.IsChain Hands := by
  have permits : s.Permits es :=
    (permits_iff_throughout s es).2 (steady.mono fun _ _ h => h.allowed)
  have balance := promotion.balanced balanced permits
  constructor
  · intro x member
    have visited : x.visit ∈ s.visits es :=
      promotion.consecutive.subset (List.mem_map.2 ⟨x, member, rfl⟩)
    obtain ⟨serves, asked⟩ := forall_visits serves_step steady serves x.visit visited
    exact Push.paced (balance x member).1.toRouted (promotion.here x member)
      (promotion.pursues x member) (asked.wanted _ rfl) serves
  · have traffic := promotion.traffic_handed balanced permits
    have chain := (chain_visits (fun s => s.descriptor.status.deployUpdatedAt) serves_step
      (fun s e quiet steady _ => deployUpdatedAt_step s e quiet steady) steady serves).2
    have consecutive := List.IsChain.infix chain promotion.consecutive
    have stamps := (List.isChain_map Push.visit).1 consecutive
    have times : (xs.map fun x => x.visit.now).Pairwise (· ≤ ·) := by
      have := ordered.sublist (promotion.consecutive.sublist.map (·.now))
      rwa [List.map_map] at this
    rw [List.isChain_iff_getElem] at traffic stamps ⊢
    intro i lt
    refine ⟨traffic i lt, stamps i lt, ?_, ?_⟩
    · exact List.pairwise_iff_getElem.1 (List.pairwise_map.1 times) i (i + 1) _ lt (by omega)
    · exact (List.isChain_iff_getElem.1 promotion.handed i lt).2

/-- **How fast a promotion goes.**  With ports, one readiness timeout and instances wanted at
every pass, the passes of a promotion hand the traffic of the release on from one to the next;
none takes any away or gives more than 25 points; and from one pass to a later one the release
gains at most 25 points and 25 more for every full readiness timeout between them, if that is not
zero. -/
theorem promotion_rate_limited {s : Rollout} {es : List Event} {xs : List Push}
    (balanced : Balanced s.releases) (serves : s.Serves timeout)
    (steady : s.Throughout (Event.Steady timeout) es)
    (ordered : ((s.visits es).map (·.now)).Pairwise (· ≤ ·))
    (promotion : Promotion (s.visits es) xs) :
    (∀ x ∈ xs, x.before.spec.traffic ≤ x.after.spec.traffic ∧
      x.after.spec.traffic ≤ x.before.spec.traffic + 25) ∧
    (xs.IsChain fun x y => y.before.spec.traffic = x.after.spec.traffic) ∧
    ∀ (i j : Nat) (x y : Push), i ≤ j → xs[i]? = some x → xs[j]? = some y →
      x.before.spec.traffic ≤ y.after.spec.traffic ∧
      (0 < timeout → y.after.spec.traffic ≤
        x.before.spec.traffic + 25 * (1 + (y.visit.now - x.visit.now) / timeout)) := by
  obtain ⟨paced, hands⟩ := promotion.paced_and_hands balanced serves steady ordered
  refine ⟨fun x member => ⟨(paced x member).rises, (paced x member).bounded⟩,
    hands.imp fun _ _ h => h.traffic, ?_⟩
  intro i j x y le first last
  have gain := gain_of_hands paced hands le first last
  exact ⟨gain.kept, gain.le⟩

namespace Sample

open Cutover.Sample

/-- A release is cut and becomes the target, all of it becomes available, and it climbs twice,
with a held pass in between. -/
def climb : List Event :=
  [.add (release "web-2" 20 .none 0 0), .pass 100,
    .observe 0 { (default : ReleaseStatus) with numAvailable := 4 }, .pass 160, .pass 170,
    .pass 220]

/-- What the passes of the climb do to the new release. -/
def climbing : List Push := pushesAt 0 (settled.visits climb)

theorem climb_steady : settled.Throughout (Event.Steady 60) climb := by
  have pass (s : Rollout) (now : Nat) (wanted : 0 < s.descriptor.desiredInstances) :
      Event.Steady 60 s (.pass now) := by
    refine ⟨trivial, fun _ _ => wanted, fun d same => ?_⟩
    cases same
  refine ⟨⟨⟨rfl, rfl, rfl⟩, ?_, ?_⟩, pass _ _ (by decide), ⟨trivial, ?_, ?_⟩, pass _ _ (by decide),
    pass _ _ (by decide), pass _ _ (by decide), trivial⟩
  all_goals
    intro _ same
    cases same

theorem climbing_promotes : Promotion (settled.visits climb) climbing :=
  ⟨⟨[], [], rfl⟩, here_of_mem_pushesAt, by decide, by decide⟩

/-- The climb takes 120 seconds and gives 50 points, of the 75 that are allowed. -/
theorem climb_within_limit :
    Balanced settled.releases ∧ settled.Serves 60 ∧
      settled.Throughout (Event.Steady 60) climb ∧
      ((settled.visits climb).map (·.now)).Pairwise (· ≤ ·) ∧
      Promotion (settled.visits climb) climbing ∧
      climbing.map (fun x => (x.visit.now, x.before.spec.traffic, x.after.spec.traffic)) =
        [(100, 0, 0), (160, 0, 25), (170, 25, 25), (220, 25, 50)] ∧
      ∀ x y, climbing[0]? = some x → climbing[3]? = some y →
        y.after.spec.traffic ≤ x.before.spec.traffic + 75 := by
  have balanced : Balanced settled.releases := by decide
  have serves : settled.Serves 60 := by decide
  have ordered : ((settled.visits climb).map (·.now)).Pairwise (· ≤ ·) := by decide
  obtain ⟨-, -, limit⟩ :=
    promotion_rate_limited balanced serves climb_steady ordered climbing_promotes
  refine ⟨balanced, serves, climb_steady, ordered, climbing_promotes, by decide, ?_⟩
  intro x y first last
  have bound := (limit 0 3 x y (by decide) first last).2 (by decide)
  cases first
  cases last
  exact bound

end Sample

end Ramp
end Cutover
