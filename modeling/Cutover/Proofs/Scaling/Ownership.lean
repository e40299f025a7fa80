/-
# Cutover.Proofs.Scaling.Ownership -- who writes the count of a release that is steered

The count of instances of a steered release stands in four objects, and three loops write them:
passes over the descriptor, passes over the release, and rounds of the scaler.  Meanwhile
groups and instances report their status.  A step of any of these keeps the store
steered (`Steered.perform`), so no interleaving of them detaches the autoscaler or takes the last
instance, and only rounds change the size of the group.  Once the scaler rests, one pass
over the release and two over the descriptor bring the size into the release's own count
(`steered_release_follows_scaler`).

That holds of a release that is not marked as the target of a promotion, and of one that the
index tells from all others.  A release with that mark is sized by the pass over it, whatever the
scaler has decided, and an autoscaler whose entry in the index is that of another label of its
may be lost (`mark_overrules_and_shared_entry_detaches`).
-/
import Cutover.Proofs.Scaling.Turns
import Cutover.Proofs.Store.Request
import Cutover.Scaling.Evaluation

namespace Cutover.Steering

set_option autoImplicit false

open Feedback Store

variable {s s' : Store} {d : Descriptor} {r : Release}

/-! ## Writes that leave the release alone -/

theorem Steered.of_agrees (steered : Steered s d r) (sound : s'.Sound)
    (agrees : ∀ j ∈ [Kind.descriptors, .builds, .appConfigs, .releases], Agrees j s s')
    (bound : Bound s' d r) (live : groupSize s' r.key ≠ 0) : Steered s' d r where
  sound := sound
  described := by
    rw [(agrees .descriptors (by decide)).getByKey]
    exact steered.described
  latest := steered.latest
  least := steered.least
  scaled := steered.scaled
  leading := steered.leading.of_agrees (agrees _ (by decide)) (agrees _ (by decide))
    (agrees _ (by decide))
  wanted := steered.wanted
  attached := bound.attached
  live := live
  listing := Unshared.of_agrees steered.listing (agrees _ (by decide))
  reserved := bound.reserved

/-- A group is replaced by one that has instances if it had. -/
theorem Steered.replace_group (steered : Steered s d r) {g g' : ReplicaGroup}
    (stored : s.getByKey .replicaGroups g.key = some g) (replaces : Replaces g g' s s')
    (keeps : g.spec.replicas ≠ 0 → g'.spec.replicas ≠ 0) : Steered s' d r := by
  have others (j : Kind) (ne : j ≠ .replicaGroups) := replaces.others j ne
  refine steered.of_agrees replaces.sound (fun j member => others j ?_)
    (steered.bound.of_agrees (others _ (by decide))) ?_
  · rintro rfl
    simp at member
  · have live := steered.live
    unfold groupSize at live ⊢
    by_cases same : r.key = g.key
    · rw [same, stored] at live
      rw [same, replaces.here]
      exact keeps live
    · rw [replaces.there _ same]
      exact live

/-- An autoscaler gets another status. -/
theorem Steered.restate_scaler (steered : Steered s d r) {a : Autoscaler}
    {status : AutoscalerStatus} {version : Nat} (stored : s.getByKey .autoscalers a.key = some a)
    (replaces : Replaces a { a with status, info.statusVersion := version } s s') :
    Steered s' d r := by
  have others (j : Kind) (ne : j ≠ .autoscalers) := replaces.others j ne
  have bound := steered.bound.replace steered.sound stored (by rfl) replaces
    (fun steers => ⟨steers.key, steers.ns, steers.label, steers.release⟩)
    fun label value has same => steered.reserved a stored label value has same
  refine steered.of_agrees replaces.sound (fun j member => others j ?_) bound ?_
  · rintro rfl
    simp at member
  · rw [groupSize_of_agrees (others _ (by decide))]
    exact steered.live

/-! ## Rounds of the scaler -/

/-- A decision is never for no instances. -/
theorem pos_of_evaluate {scaler scaler' : Scaler} {key : String} {a : AutoscalerSpec}
    {current now n : Nat} {utilization : Option Nat}
    (decided : scaler.evaluate key a current utilization now = (some n, scaler')) : 0 < n := by
  have lower : 0 < Scaler.lowerBound a := Nat.le_max_right ..
  have wanted : 0 < Scaler.wanted a current utilization := Nat.lt_min.2
    ⟨Nat.lt_of_lt_of_le lower (Nat.le_max_right ..), Nat.lt_of_lt_of_le lower (Nat.le_max_right ..)⟩
  unfold Scaler.evaluate at decided
  simp only at decided
  split at decided
  · cases decided
  · split at decided
    · split at decided
      · cases decided
      · cases decided
        exact wanted
    · split at decided
      · cases decided
      · cases decided
        exact wanted

theorem Steered.ends_evaluateOne (steered : Steered s d r) (scaler : Scaler) (a : Autoscaler) :
    Pass.Ends (scaler.evaluateOne a) s fun _ s' => Steered s' d r := by
  unfold Scaler.evaluateOne
  refine Pass.ends_read ?_
  simp only
  cases there : s.get .replicaGroups a.info.ns a.spec.release with
  | none => exact Pass.ends_pure steered
  | some group =>
      simp only
      generalize decided : scaler.evaluate a.key a.spec group.spec.replicas _ _ = outcome
      obtain ⟨decision, scaler'⟩ := outcome
      have noted (s₁ : Store) (steered : Steered s₁ d r) :
          Pass.Ends (discard (modifyStatus .autoscalers a.info.ns a.name fun x =>
            Scaler.noted x.status group.spec.replicas decision s.clock)) s₁
            fun _ s' => Steered s' d r := by
        refine (ends_modifyStatus_any steered.sound ..).discard.mono ?_
        rintro - s' ⟨-, rfl | ⟨x, version, found, replaces⟩⟩
        · exact steered
        · exact steered.restate_scaler found replaces
      cases decision with
      | none => exact (noted s steered).bind fun _ _ kept => Pass.ends_pure kept
      | some n =>
          have some_ : n ≠ 0 := Nat.ne_of_gt (pos_of_evaluate decided)
          have resized : Pass.Ends (discard (modifySpec .replicaGroups a.info.ns a.spec.release
              fun g => { g with spec.replicas := n })) s fun _ s' => Steered s' d r := by
            refine (ends_modifySpec steered.sound there rfl).discard.mono ?_
            rintro - s' ⟨-, version, replaces⟩
            have stored : s.getByKey .replicaGroups group.key = some group := by
              rw [steered.sound.keyed _ _ group there]
              exact there
            exact steered.replace_group stored replaces fun _ => some_
          refine resized.bind fun _ s₁ steered₁ => ?_
          exact (noted s₁ steered₁).bind fun _ _ kept => Pass.ends_pure kept

theorem Steered.ends_evaluateEach (steered : Steered s d r) (scaler : Scaler)
    (scalers : List Autoscaler) :
    Pass.Ends (scaler.evaluateEach scalers) s fun _ s' => Steered s' d r := by
  induction scalers generalizing s scaler with
  | nil => exact Pass.ends_pure steered
  | cons a rest ih =>
      unfold Scaler.evaluateEach
      refine (steered.ends_evaluateOne scaler a).bind ?_
      rintro ⟨first, scaler'⟩ s₁ steered₁
      refine (ih steered₁ scaler').bind ?_
      rintro ⟨others, scaler''⟩ s₂ steered₂
      exact Pass.ends_pure steered₂

theorem Steered.ends_evaluateAll (steered : Steered s d r) (scaler : Scaler) :
    Pass.Ends scaler.evaluateAll s fun _ s' => Steered s' d r := by
  unfold Scaler.evaluateAll
  exact Pass.ends_read (steered.ends_evaluateEach scaler _)

/-! ## Reports -/

/-- A write of the status of a group or an instance; or some time passes. -/
def IsReport : Request → Prop
  | .updateStatus (k := k) _ => k = .replicaGroups ∨ k = .instances
  | .modifyStatus k _ _ _ => k = .replicaGroups ∨ k = .instances
  | .wait _ => True
  | _ => False

/-- The status of a group or an instance is written. -/
theorem Steered.restate (steered : Steered s d r) {k : Kind} {o : Object k} {status : k.Status}
    {version : Nat} (kind : k = .replicaGroups ∨ k = .instances)
    (stored : s.getByKey k o.key = some o)
    (replaces : Replaces o { o with status, info.statusVersion := version } s s') :
    Steered s' d r ∧ groupSize s' r.key = groupSize s r.key := by
  rcases kind with rfl | rfl
  · refine ⟨steered.replace_group stored replaces id, ?_⟩
    unfold groupSize
    by_cases same : r.key = o.key
    · rw [same, replaces.here, stored]
      rfl
    · rw [replaces.there _ same]
  · have others (j : Kind) (ne : j ≠ .instances) := replaces.others j ne
    have size : groupSize s' r.key = groupSize s r.key := groupSize_of_agrees (others _ (by decide)) _
    refine ⟨steered.of_agrees replaces.sound (fun j member => others j ?_)
      (steered.bound.of_agrees (others _ (by decide))) (size ▸ steered.live), size⟩
    rintro rfl
    simp at member

theorem Steered.serve (steered : Steered s d r) {request : Request} (report : IsReport request) :
    Steered (s.serve request) d r ∧ groupSize (s.serve request) r.key = groupSize s r.key := by
  cases request with
  | updateStatus o =>
      show Steered ((Pass.write (·.updateStatus o)).left s) d r ∧
        groupSize ((Pass.write (·.updateStatus o)).left s) r.key = _
      cases done : s.updateStatus o with
      | error e =>
          rw [left_write_of_error done]
          exact ⟨steered, rfl⟩
      | ok result =>
          obtain ⟨current, found, -, -, same⟩ := eq_of_updateStatus done
          have key := steered.sound.keyed _ _ current found
          have accepted : (restated current o.status).info.isPersisted = true :=
            steered.sound.accepted _ _ current found
          have replaces := replaces_commit steered.sound
            (show (restated current o.status).key = current.key from rfl) accepted .statusUpdated
          rw [left_write_of_ok done, same]
          exact steered.restate report (key ▸ found) replaces
  | modifyStatus k ns name f =>
      show Steered ((modifyStatus k ns name f).left s) d r ∧
        groupSize ((modifyStatus k ns name f).left s) r.key = _
      obtain ⟨-, same | ⟨o, version, found, replaces⟩⟩ :=
        exists_left_of_ends (ends_modifyStatus_any steered.sound ns name f)
      · rw [same]
        exact ⟨steered, rfl⟩
      · exact steered.restate report found replaces
  | wait clock =>
      refine ⟨steered.of_agrees (steered.sound.next (.later clock)) (fun _ _ => ⟨rfl, fun _ _ => rfl⟩)
        ?_ steered.live, rfl⟩
      exact steered.bound.of_agrees ⟨rfl, fun _ _ => rfl⟩
  | _ => exact report.elim

/-! ## Interleavings -/

/-- A pass over the descriptor or the release at a time, a round of the scaler, or a report. -/
inductive Action where
  | deployment (now : Nat)
  | release (now : Nat)
  | evaluate (scaler : Scaler)
  | report (request : Request) (is_report : IsReport request)

/-- Nothing but a round of the scaler writes the count of a group. -/
def Action.isRound : Action → Bool
  | .evaluate _ => true
  | _ => false

/-- The store after an action on the descriptor and the release of two keys, if it succeeds. -/
def Action.perform (descriptor release : String) (s : Store) : Action → Option Store
  | .deployment now => after (Deployment.run descriptor now s)
  | .release now => after (ReleasePass.run release now s)
  | .evaluate scaler => after (scaler.evaluateAll s)
  | .report request _ => some (s.serve request)

/-- The store after some actions, if all of them succeed. -/
def interleaved (descriptor release : String) : Store → List Action → Option Store
  | s, [] => some s
  | s, a :: rest =>
      (a.perform descriptor release s).bind fun s' => interleaved descriptor release s' rest

/-- What an action makes of the copies of the count while the scaler rests. -/
def follow (bound : Nat → Nat) (c : Copies) : Action → Copies
  | .deployment _ => { c with wanted := bound c.mirrored, mirrored := c.seen }
  | .release _ => { c with seen := c.group }
  | _ => c

/-- What actions keep: the store is steered, by the same keys and with the same bounds. -/
structure Follows (s : Store) (d : Descriptor) (r : Release) (s' : Store) (d' : Descriptor)
    (r' : Release) : Prop where
  steered : Steered s' d' r'
  unmarked : Unmarked r'
  descriptor : d'.key = d.key
  spec : d'.spec = d.spec
  release : r'.key = r.key

/-- **Every action succeeds on a steered store and leaves it steered.** -/
theorem Steered.perform (steered : Steered s d r) (unmarked : Unmarked r) {release : String}
    (reached : objectKey (splitKey release).1 (splitKey release).2 = r.key) (a : Action) :
    ∃ s' d' r', a.perform d.key release s = some s' ∧ Follows s d r s' d' r' ∧
      (a.isRound = false → copiesOf s' d' r' = follow (bounded d.spec.scale) (copiesOf s d r) a) := by
  cases a with
  | deployment now =>
      obtain ⟨-, s', performed, d', r', steered', unmarked', key, spec, key', wanted, seen, mirrored,
        groups⟩ := after_of_ends (steered.ends_deployment unmarked now)
      refine ⟨s', d', r', performed, ⟨steered', unmarked', key, spec, key'⟩, fun _ => ?_⟩
      unfold copiesOf follow
      rw [wanted, seen, mirrored, key', groupSize_of_agrees groups, steered.desiredInstances_eq]
  | release now =>
      obtain ⟨-, s', performed, r', steered', unmarked', key, spec, seen, groups⟩ :=
        after_of_ends (steered.ends_release unmarked reached now)
      refine ⟨s', d, r', performed, ⟨steered', unmarked', rfl, rfl, key⟩, fun _ => ?_⟩
      unfold copiesOf follow
      rw [spec, seen, key, groupSize_of_agrees groups]
  | evaluate scaler =>
      obtain ⟨-, s', performed, steered'⟩ := after_of_ends (steered.ends_evaluateAll scaler)
      refine ⟨s', d, r, performed, ⟨steered', unmarked, rfl, rfl, rfl⟩, fun quiet => ?_⟩
      cases quiet
  | report request is_report =>
      obtain ⟨steered', size⟩ := steered.serve is_report
      refine ⟨_, d, r, rfl, ⟨steered', unmarked, rfl, rfl, rfl⟩, fun _ => ?_⟩
      unfold copiesOf follow
      rw [size]

theorem Follows.trans {s₁ s₂ : Store} {d₁ d₂ : Descriptor} {r₁ r₂ : Release}
    (first : Follows s d r s₁ d₁ r₁) (second : Follows s₁ d₁ r₁ s₂ d₂ r₂) :
    Follows s d r s₂ d₂ r₂ where
  steered := second.steered
  unmarked := second.unmarked
  descriptor := second.descriptor.trans first.descriptor
  spec := second.spec.trans first.spec
  release := second.release.trans first.release

/-- Whatever the order of some actions, they succeed and leave the store steered. -/
theorem Steered.interleaved (steered : Steered s d r) (unmarked : Unmarked r) {release : String}
    (reached : objectKey (splitKey release).1 (splitKey release).2 = r.key)
    (actions : List Action) :
    ∃ s' d' r', interleaved d.key release s actions = some s' ∧ Follows s d r s' d' r' ∧
      ((∀ a ∈ actions, a.isRound = false) → copiesOf s' d' r' =
        actions.foldl (follow (bounded d.spec.scale)) (copiesOf s d r)) := by
  induction actions generalizing s d r with
  | nil => exact ⟨s, d, r, rfl, ⟨steered, unmarked, rfl, rfl, rfl⟩, fun _ => rfl⟩
  | cons a rest ih =>
      obtain ⟨s₁, d₁, r₁, performed, first, copies₁⟩ := steered.perform unmarked reached a
      have reached₁ := reached.trans first.release.symm
      obtain ⟨s₂, d₂, r₂, run, second, copies₂⟩ := ih first.steered first.unmarked reached₁
      rw [first.descriptor] at run
      refine ⟨s₂, d₂, r₂, ?_, first.trans second, fun quiet => ?_⟩
      · rw [Steering.interleaved, performed, Option.bind_some, run]
      · obtain ⟨here, there⟩ := List.forall_mem_cons.1 quiet
        rw [copies₂ there, copies₁ here, first.spec, List.foldl_cons]

/-! ## Catching up -/

/-- How far a count has come from the group of a release: into its status, the status of its
descriptor, and back into its spec. -/
structure Come (n level : Nat) (c : Copies) : Prop where
  group : c.group = n
  seen : 0 < level → c.seen = n
  mirrored : 1 < level → c.mirrored = n
  wanted : 2 < level → c.wanted = n

section Come

variable {bound : Nat → Nat} {n level : Nat} {c : Copies}

/-- A count within the bounds is not lost. -/
theorem Come.follow (come : Come n level c) (within_ : bound n = n) (a : Action) :
    Come n level (follow bound c a) := by
  obtain ⟨group, seen, mirrored, wanted⟩ := come
  cases a with
  | deployment now =>
      refine ⟨group, seen, fun far => seen (by omega), fun far => ?_⟩
      show bound c.mirrored = n
      rw [mirrored (by omega), within_]
  | release now => exact ⟨group, fun _ => group, mirrored, wanted⟩
  | _ => exact ⟨group, seen, mirrored, wanted⟩

theorem Come.foldl (come : Come n level c) (within_ : bound n = n) (actions : List Action) :
    Come n level (actions.foldl (Steering.follow bound) c) := by
  induction actions generalizing c with
  | nil => exact come
  | cons a rest ih => exact ih (come.follow within_ a)

theorem Come.release (come : Come n 0 c) (now : Nat) :
    Come n 1 (Steering.follow bound c (.release now)) :=
  ⟨come.group, fun _ => come.group, fun far => by omega, fun far => by omega⟩

/-- A pass over the descriptor brings a count that the release has seen one level further. -/
theorem Come.deployment (come : Come n level c) (begun : 0 < level) (within_ : bound n = n)
    (now : Nat) : Come n (level + 1) (Steering.follow bound c (.deployment now)) := by
  obtain ⟨group, seen, mirrored, wanted⟩ := come
  refine ⟨group, fun _ => seen begun, fun _ => seen begun, fun far => ?_⟩
  show bound c.mirrored = n
  rw [mirrored (by omega), within_]

/-- A pass over the release and two over the descriptor, with others between them. -/
theorem come_of_passes (group : c.group = n) (within_ : bound n = n) (now now₁ now₂ : Nat)
    (between between' later : List Action) :
    Come n 3 ((.release now :: between ++ .deployment now₁ :: between' ++
      .deployment now₂ :: later).foldl (Steering.follow bound) c) := by
  have start : Come n 0 c := ⟨group, fun far => by omega, fun far => by omega, fun far => by omega⟩
  have first : Come n 1 (Steering.follow bound c (.release now)) := start.release now
  have seen := first.foldl within_ between
  have mirrored := (seen.deployment (by omega) within_ now₁).foldl within_ between'
  have wanted := (mirrored.deployment (by omega) within_ now₂).foldl within_ later
  simpa using wanted

end Come

section Quiet

variable {d' : Descriptor} {r' : Release} {release : String}

theorem Follows.wantedOf_eq (follows : Follows s d r s' d' r') :
    wantedOf r.key s' = r'.spec.numDesired := by
  unfold wantedOf
  rw [← follows.release, follows.steered.leading.found follows.steered.sound]
  rfl

/-- An action that is no round leaves the size of the group. -/
theorem Steered.keeps_size (steered : Steered s d r) (unmarked : Unmarked r)
    (reached : objectKey (splitKey release).1 (splitKey release).2 = r.key) {a : Action}
    (quiet : a.isRound = false) : ∃ s', a.perform d.key release s = some s' ∧
      groupSize s' r.key = groupSize s r.key := by
  obtain ⟨s', d', r', performed, follows, copies⟩ := steered.perform unmarked reached a
  refine ⟨s', performed, ?_⟩
  have kept : (follow (bounded d.spec.scale) (copiesOf s d r) a).group = groupSize s r.key := by
    cases a <;> rfl
  rw [← kept, ← copies quiet, ← follows.release]
  rfl

/-- A pass over the release and two over the descriptor bring the size of the group into the count
of the release. -/
theorem Steered.catches_up (steered : Steered s d r) (unmarked : Unmarked r)
    (reached : objectKey (splitKey release).1 (splitKey release).2 = r.key)
    (least : d.spec.scale.min ≤ groupSize s r.key)
    (most : groupSize s r.key ≤ max d.spec.scale.min d.spec.scale.max) (now now₁ now₂ : Nat)
    {between between' later : List Action}
    (quiet : ∀ a ∈ between ++ between' ++ later, a.isRound = false) :
    ∃ s', Steering.interleaved d.key release s (.release now :: between ++ .deployment now₁ ::
        between' ++ .deployment now₂ :: later) = some s' ∧
      wantedOf r.key s' = groupSize s r.key := by
  have within_ : bounded d.spec.scale (groupSize s r.key) = groupSize s r.key := by
    unfold bounded
    omega
  obtain ⟨s', d', r', run, follows, copies⟩ := steered.interleaved unmarked reached
    (.release now :: between ++ .deployment now₁ :: between' ++ .deployment now₂ :: later)
  have all_quiet : ∀ a ∈ Action.release now :: between ++ .deployment now₁ ::
      between' ++ .deployment now₂ :: later, a.isRound = false := by
    intro a member
    simp only [List.cons_append, List.append_assoc, List.mem_cons, List.mem_append] at member
    rcases member with rfl | inside | rfl | inside | rfl | inside
    · rfl
    · exact quiet a (by simp [inside])
    · rfl
    · exact quiet a (by simp [inside])
    · rfl
    · exact quiet a (by simp [inside])
  have come : Come (groupSize s r.key) 3 (copiesOf s' d' r') := by
    have group : (copiesOf s d r).group = groupSize s r.key := rfl
    rw [copies all_quiet]
    exact come_of_passes group within_ now now₁ now₂ between between' later
  refine ⟨s', run, ?_⟩
  rw [follows.wantedOf_eq]
  exact come.wanted (by omega)

end Quiet

/-- **The scaler and the passes do not fight.**  After any interleaving of passes over a descriptor
and its release, rounds of the scaler and reports, the autoscaler is attached, the group
and the release's count are not zero, and no action but a round changes the group's size.  Once
the scaler rests, a pass over the release and two over its descriptor bring a size within
the bounds into the release's count, whatever reports and passes come between. -/
theorem steered_release_follows_scaler (steered : Steered s d r) (unmarked : Unmarked r)
    {release : String} (reached : objectKey (splitKey release).1 (splitKey release).2 = r.key)
    (actions : List Action) :
    ∃ s' d' r', interleaved d.key release s actions = some s' ∧ Follows s d r s' d' r' ∧
      Attached s' d' r' ∧ groupSize s' r.key ≠ 0 ∧ 0 < wantedOf r.key s' ∧
      (∀ a : Action, a.isRound = false → ∃ s'', a.perform d.key release s' = some s'' ∧
        groupSize s'' r.key = groupSize s' r.key) ∧
      ∀ now now₁ now₂ between between' later, (∀ a ∈ between ++ between' ++ later,
          a.isRound = false) → d.spec.scale.min ≤ groupSize s' r.key →
        groupSize s' r.key ≤ max d.spec.scale.min d.spec.scale.max →
        ∃ s'', interleaved d.key release s' (.release now :: between ++ .deployment now₁ ::
          between' ++ .deployment now₂ :: later) = some s'' ∧
          wantedOf r.key s'' = groupSize s' r.key := by
  obtain ⟨s', d', r', run, follows, -⟩ := steered.interleaved unmarked reached actions
  have reached' := reached.trans follows.release.symm
  have live := follows.steered.live
  have wanted := follows.steered.wanted
  rw [follows.release] at live
  rw [← follows.wantedOf_eq] at wanted
  refine ⟨s', d', r', run, follows, follows.steered.attached, live, wanted, ?_, ?_⟩
  · intro a quiet
    rw [← follows.descriptor, ← follows.release]
    exact follows.steered.keeps_size follows.unmarked reached' quiet
  · intro now now₁ now₂ between between' later quiet least most
    rw [← follows.release, ← follows.spec] at least most
    rw [← follows.descriptor, ← follows.release]
    exact follows.steered.catches_up follows.unmarked reached' least most now now₁ now₂ quiet

/-! ## A release that is marked -/

/-- A marked release is sized by the pass over it. -/
theorem Steered.ends_release_of_marked (steered : Steered s d r) {value : String}
    (marked : r.label? Label.promotionTarget = some value) {group : ReplicaGroup}
    (desired : ReleasePass.desiredGroup s r = .ok group) (same_key : group.key = r.key)
    {key : String} (reached : objectKey (splitKey key).1 (splitKey key).2 = r.key) (now : Nat) :
    Pass.Ends (ReleasePass.run key now) s fun _ s' => groupSize s' r.key = group.spec.replicas := by
  have none_ : ReleasePass.autoscaledGroup? s r = none := by
    unfold ReleasePass.autoscaledGroup?
    rw [marked]
    simp
  unfold ReleasePass.run
  generalize splitKey key = parts at reached ⊢
  obtain ⟨ns, name⟩ := parts
  have found : s.get .releases ns name = some r := by
    unfold Store.get
    rw [reached, steered.leading.found steered.sound]
  refine Pass.ends_read ?_
  simp only [found]
  refine (ends_settleGroup_of_desired steered.sound none_ (Nat.ne_of_gt steered.wanted) desired ns
    name).bind ?_
  rintro _ s₁ ⟨stored, rfl, spec, there, others, sound⟩
  have size : groupSize s₁ r.key = group.spec.replicas := by
    unfold groupSize
    rw [← same_key, there]
    show stored.spec.replicas = _
    rw [spec]
  refine Pass.ends_read ?_
  split
  · refine (ends_modifyStatus_any sound ns name _).within.discard.bind ?_
    rintro - s₂ ⟨-, rfl | ⟨o, version, -, replaces⟩⟩
    · exact Pass.ends_pure size
    · refine Pass.ends_pure ?_
      rw [groupSize_of_agrees (replaces.others .replicaGroups (by decide)), size]
  · exact Pass.ends_pure size

namespace Sample

open Cutover.Sample Cutover.Feedback.Sample

/-- A descriptor that wants an autoscaler, with bounds of two and six. -/
def elastic : Descriptor :=
  { descriptor 2 with
    spec.scale := ⟨2, 6, 50⟩
    spec.runtime.resources.requests.cpu := some "100m" }

/-- Its active release, which wants three instances, with a mark or without. -/
def serving (name : String) (marked : Bool) : Release :=
  let own := (Label.ofTarget "web" "prod").insert Label.targetHash elastic.spec.fingerprint
  { release name 10 .active 100 3 with
    info.labels := if marked then own.insert Label.promotionTarget "1" else own }

def scaler (name : String) : Autoscaler :=
  let own := Binding.autoscalerFor elastic (serving name false)
  { own with info.createdAt := 20, info.specVersion := 1, info.statusVersion := 1 }

/-- The group of a release, which the scaler has brought to five instances. -/
def group (r : Release) : ReplicaGroup :=
  let own := Workload.groupFor r build none []
  { own with
    info.createdAt := 20, info.specVersion := 1, info.statusVersion := 1, spec.replicas := 5 }

theorem key_groupFor (r : Release) : (Workload.groupFor r build none []).key = r.key := rfl

/-- The store with the build, the descriptor and a release. -/
def rolledOut (r : Release) : Store :=
  (((Store.empty 100).commit build ∅ .created).commit elastic ∅ .created).commit r ∅ .created

def store (r : Release) (a : Autoscaler) : Store :=
  ((rolledOut r).commit a ∅ .created).commit (group r) ∅ .created

variable {name : String} {marked : Bool} {a : Autoscaler}

theorem sound_rolledOut : (rolledOut (serving name marked)).Sound :=
  (((sound_empty 100).commit rfl _ _).commit rfl _ _).commit rfl _ _

theorem get_build (r : Release) : (rolledOut r).get .builds "" "web-v1" = some build := by
  have same := getByKey_commit_self (Store.empty 100) build ∅ .created
  rw [Store.get, rolledOut, (agrees_commit (by decide) ..).getByKey,
    (agrees_commit (by decide) ..).getByKey]
  exact same

theorem leading_rolledOut :
    Leading (rolledOut (serving name marked)) elastic (serving name marked) where
  listed := by
    refine (mem_ofTarget sound_rolledOut).2 ⟨getByKey_commit_self .., ?_, ?_, ?_⟩
    · refine Index.mem_keys_relabel.2 (.inl (Index.mem_entriesBeyond.2
        ⟨Label.app, "web", ?_, by simp, rfl⟩))
      cases marked <;> rfl
    · cases marked <;> rfl
    · cases marked <;> rfl
  active := rfl
  outdated := by
    intro o member ne
    have found := ((mem_ofTarget sound_rolledOut).1 member).1
    rw [rolledOut, getByKey_commit_of_ne _ _ _ _ ne, (agrees_commit (by decide) ..).getByKey,
      (agrees_commit (by decide) ..).getByKey] at found
    cases found
  current := by
    have unconfigured : configOf (rolledOut (serving name marked)) elastic = none := by
      unfold configOf Configuration.resolve Configuration.appEntries Configuration.sharedEntries
        Configuration.merged
      rw [rolledOut, (agrees_commit (by decide) ..).matching, (agrees_commit (by decide) ..).matching,
        (agrees_commit (by decide) ..).matching, matching_empty]
      rfl
    have ne : Label.targetHash ≠ Label.promotionTarget := by decide
    rw [unconfigured]
    unfold Deployment.isCurrent
    cases marked <;> simp [serving, Object.label?, Dict.get?_insert, ne]
  built := by
    show ((rolledOut _).get .builds "" "web-v1").isSome
    rw [get_build]
    rfl

theorem size_store (name : String) (marked : Bool) (a : Autoscaler) :
    groupSize (store (serving name marked) a) (serving name marked).key = 5 := by
  have there : (store (serving name marked) a).getByKey .replicaGroups (serving name marked).key =
      some (group (serving name marked)) := getByKey_commit_self ..
  unfold groupSize
  rw [there]
  rfl

theorem scaled_store (steers : Steers elastic (serving name marked) a)
    (accepted : a.info.isPersisted = true) :
    Scaled (store (serving name marked) a) elastic (serving name marked) := by
  have first (j : Kind) (ne : j ≠ .autoscalers) :=
    agrees_commit ne (rolledOut (serving name marked)) a ∅ .created
  have second (j : Kind) (ne : j ≠ .replicaGroups) :=
    agrees_commit ne ((rolledOut (serving name marked)).commit a ∅ .created)
      (group (serving name marked)) ∅ .created
  have others (j : Kind) (ne : j ≠ .autoscalers ∧ j ≠ .replicaGroups) :
      Agrees j (rolledOut (serving name marked)) (store (serving name marked) a) :=
    (first j ne.1).trans (second j ne.2)
  have sound : ((rolledOut (serving name marked)).commit a ∅ .created).Sound :=
    sound_rolledOut.commit accepted _ _
  constructor
  · exact sound.commit rfl _ _
  · rw [(others _ (by decide)).getByKey, rolledOut, (agrees_commit (by decide) ..).getByKey]
    exact getByKey_commit_self ..
  · rfl
  · decide
  · rfl
  · exact leading_rolledOut.of_agrees (others _ (by decide)) (others _ (by decide))
      (others _ (by decide))
  · exact Nat.succ_pos 2
  · refine Attached.of_agrees ⟨a, ?_, steers⟩ (second _ (by decide))
    refine (mem_ofRelease sound).2 ⟨getByKey_commit_self .., ?_, steers.label⟩
    exact Index.mem_keys_relabel.2 (.inl (Index.mem_entriesBeyond.2
      ⟨Label.release, name, steers.label, by simp, rfl⟩))
  · rw [size_store]
    decide

theorem steers_scaler (name : String) (marked : Bool) :
    Steers elastic (serving name marked) (scaler name) where
  key := by
    show objectKey "prod" "web-scaler" = objectKey "prod" "web-scaler"
    rfl
  ns := rfl
  label := Dict.get?_insert_self ..
  release := rfl

theorem unmarked_serving (name : String) : Unmarked (serving name false) := by
  show ((Label.ofTarget "web" "prod").insert Label.targetHash _).get? Label.promotionTarget = none
  rw [Dict.get?_insert_of_ne _ _ (by decide)]
  exact Label.get?_ofTarget _ _ _ (by decide) (by decide) (by decide)

theorem steered_store (marked : Bool) :
    Steered (store (serving "web-1" marked) (scaler "web-1")) elastic (serving "web-1" marked) where
  toScaled := scaled_store (steers_scaler "web-1" marked) rfl
  listing := by
    have key : '\x1f' ∉ "prod/web-1".toList := by decide
    exact Unshared.of_free _ (by decide) (by decide) (by decide) (by decide) key
  reserved := by
    have value : '\x1f' ∉ "web-1".toList ∧ '=' ∉ "web-1".toList := by decide
    have key : '\x1f' ∉ "prod/web-scaler".toList := by decide
    exact Unshared.of_free _ (by decide) (by decide) value.1 value.2 key

/-- The store in which the release has no mark. -/
def held : Store := store (serving "web-1" false) (scaler "web-1")

/-- The store in which it has one. -/
def amid : Store := store (serving "web-1" true) (scaler "web-1")

/-- The scaler's five instances are taken over into the release. -/
theorem five_instances_kept :
    Steered held elastic (serving "web-1" false) ∧ Unmarked (serving "web-1" false) ∧
      objectKey (splitKey "prod/web-1").1 (splitKey "prod/web-1").2 =
        (serving "web-1" false).key ∧
      wantedOf "prod/web-1" held = 3 ∧
      ∃ s', interleaved "web-prod" "prod/web-1" held
        [.release 100, .deployment 100, .deployment 200] = some s' ∧
        wantedOf "prod/web-1" s' = 5 := by
  have steered : Steered held elastic (serving "web-1" false) := steered_store false
  have unmarked := unmarked_serving "web-1"
  have reached : objectKey (splitKey "prod/web-1").1 (splitKey "prod/web-1").2 =
      (serving "web-1" false).key := by decide
  have size : groupSize held (serving "web-1" false).key = 5 := size_store ..
  refine ⟨steered, unmarked, reached, ?_, ?_⟩
  · have found := steered.leading.found steered.sound
    show ((Option.map _ (held.getByKey .releases (serving "web-1" false).key)).getD 0) = 3
    rw [found]
    rfl
  · obtain ⟨s', d', r', run, -, -, -, -, -, catches⟩ :=
      steered_release_follows_scaler steered unmarked reached []
    cases run
    obtain ⟨s'', run, wanted⟩ := catches 100 100 200 [] [] [] (by simp) (by rw [size]; decide)
      (by rw [size]; decide)
    exact ⟨s'', run, wanted.trans size⟩

/-- An autoscaler with two labels that are filed under one text. -/
def doubled : Autoscaler :=
  { scaler "web=1" with
    info.labels := (scaler "web=1").info.labels.insert "flotilla.dev/release=web" "1" }

def crossed : Store := store (serving "web=1" false) doubled

theorem label_doubled : doubled.label? Label.release = some "web=1" := by
  show (Dict.insert _ "flotilla.dev/release=web" "1").get? Label.release = _
  rw [Dict.get?_insert_of_ne _ _ (by decide)]
  exact Dict.get?_insert_self ..

theorem steers_doubled : Steers elastic (serving "web=1" false) doubled where
  key := by
    show objectKey "prod" "web-scaler" = objectKey "prod" "web-scaler"
    rfl
  ns := rfl
  label := label_doubled
  release := rfl

theorem scaled_crossed : Scaled crossed elastic (serving "web=1" false) :=
  scaled_store steers_doubled rfl

theorem listing_crossed : Listing crossed elastic (serving "web=1" false) := by
  have key : '\x1f' ∉ "prod/web=1".toList := by decide
  exact Unshared.of_free _ (by decide) (by decide) (by decide) (by decide) key

theorem eq_doubled {o : Autoscaler} (stored : crossed.getByKey .autoscalers o.key = some o) :
    o = doubled := by
  rw [crossed, store, (agrees_commit (by decide) ..).getByKey] at stored
  by_cases same : o.key = doubled.key
  · rw [same, getByKey_commit_self] at stored
    exact (Option.some.inj stored).symm
  · rw [getByKey_commit_of_ne _ _ _ _ same] at stored
    cases stored

/-- When it is bound again its second label goes, and then it is not found by the first. -/
theorem doubled_lost : Rebinds crossed elastic "web=1"
    fun s' => s'.matching .autoscalers (Selector.ofRelease "web=1") = [] := by
  intro s₁ d' xs x sound agrees spec chosen name
  have name' : x.name = "web=1" := name
  unfold Binding.reconcile
  refine Pass.ends_read ?_
  simp only [chosen, name']
  have none_ : ((s₁.matching .autoscalers (Selector.ofTarget d'.spec.app d'.spec.target)).filter
      fun a => a.label? Label.release != some "web=1") = [] := by
    refine List.filter_eq_nil_iff.2 fun a member => ?_
    have stored := ((mem_ofTarget sound).1 member).1
    rw [agrees.getByKey] at stored
    rw [eq_doubled stored, label_doubled]
    decide
  rw [none_]
  have key : (Binding.autoscalerFor d' x).key = doubled.key := by
    show objectKey d'.spec.target (Binding.scalerName d'.spec.app) = "prod/web-scaler"
    rw [spec]
    rfl
  have found : s₁.getByKey .autoscalers (Binding.autoscalerFor d' x).key = some doubled := by
    rw [agrees.getByKey, key, crossed, store, (agrees_commit (by decide) ..).getByKey]
    exact getByKey_commit_self ..
  refine (ends_apply_stored sound found).bind ?_
  rintro ⟨scaler, changed⟩ s₂ ⟨version, replaces⟩
  refine Pass.ends_pure ⟨⟨_, rfl⟩, replaces.sound, replaces.others, fun s' left => ?_⟩
  rw [left.matching]
  refine List.eq_nil_iff_forall_not_mem.2 fun o member => ?_
  obtain ⟨stored, entry, -⟩ := (mem_ofRelease replaces.sound).1 member
  have here : o.key = doubled.key := by
    by_contra other
    rw [replaces.there _ other, agrees.getByKey] at stored
    exact other (congrArg _ (eq_doubled stored))
  rw [here, replaces.index, Index.mem_keys_relabel] at entry
  rcases entry with added | ⟨stays, -⟩
  · obtain ⟨label, value, has, lacks, same⟩ := Index.mem_entriesBeyond.1 added
    have has' : ((Label.ofTarget d'.spec.app d'.spec.target).insert Label.release x.name).get?
        label = some value := has
    rw [name'] at has'
    obtain ⟨rfl, rfl⟩ := eq_of_entry_eq has' same.symm
    exact lacks label_doubled
  · refine stays (Index.mem_entriesBeyond.2 ⟨"flotilla.dev/release=web", "1",
      Dict.get?_insert_self .., ?_, by decide⟩)
    show ((Label.ofTarget d'.spec.app d'.spec.target).insert Label.release x.name).get? _ ≠ _
    rw [Dict.get?_insert_of_ne _ _ (by decide),
      Label.get?_ofTarget _ _ _ (by decide) (by decide) (by decide)]
    simp

end Sample

/-- A marked release is brought back to its own three instances from the scaler's five, though the
pass over it is no round of the scaler; and an autoscaler that is found by a text that two of its
labels share is not found after a pass over the descriptor. -/
theorem mark_overrules_and_shared_entry_detaches :
    (Steered Sample.amid Sample.elastic (Sample.serving "web-1" true) ∧
      groupSize Sample.amid "prod/web-1" = 5 ∧
      ∃ s', interleaved "web-prod" "prod/web-1" Sample.amid [.release 100] = some s' ∧
        groupSize s' "prod/web-1" = 3) ∧
    Scaled Sample.crossed Sample.elastic (Sample.serving "web=1" false) ∧
      Unmarked (Sample.serving "web=1" false) ∧
      ∃ s', interleaved "web-prod" "prod/web=1" Sample.crossed [.deployment 100] = some s' ∧
        s'.matching .autoscalers (Selector.ofRelease "web=1") = [] := by
  have steered : Steered Sample.amid Sample.elastic (Sample.serving "web-1" true) :=
    Sample.steered_store true
  have desired : ReleasePass.desiredGroup Sample.amid (Sample.serving "web-1" true) =
      .ok (Workload.groupFor (Sample.serving "web-1" true) Feedback.Sample.build none []) := by
    have built : Sample.amid.get .builds "" (Sample.serving "web-1" true).spec.build =
        some Feedback.Sample.build := by
      rw [Sample.amid, Sample.store, (agrees_commit (by decide) ..).get,
        (agrees_commit (by decide) ..).get]
      exact Sample.get_build _
    unfold ReleasePass.desiredGroup
    rw [built]
    rfl
  have reached : objectKey (splitKey "prod/web-1").1 (splitKey "prod/web-1").2 =
      (Sample.serving "web-1" true).key := by decide
  have unmarked := Sample.unmarked_serving "web=1"
  refine ⟨⟨steered, Sample.size_store .., ?_⟩, Sample.scaled_crossed, unmarked, ?_⟩
  · obtain ⟨-, s', performed, size⟩ := after_of_ends
      (steered.ends_release_of_marked (Dict.get?_insert_self ..) desired (Sample.key_groupFor _)
        reached 100)
    refine ⟨s', ?_, size⟩
    show (after (ReleasePass.run "prod/web-1" 100 Sample.amid)).bind _ = some s'
    rw [performed]
    rfl
  · obtain ⟨-, s', performed, -, -, -, -, -, -, -, lost⟩ := after_of_ends
      (Sample.scaled_crossed.ends_deployment Sample.listing_crossed unmarked Sample.doubled_lost 100)
    refine ⟨s', ?_, lost⟩
    show (after (Deployment.run "web-prod" 100 Sample.crossed)).bind _ = some s'
    rw [show "web-prod" = Sample.elastic.key from rfl, performed]
    rfl

end Cutover.Steering
