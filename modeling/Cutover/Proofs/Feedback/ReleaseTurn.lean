/-
# Cutover.Proofs.Feedback.ReleaseTurn -- a pass over a settled release

On a settled store the pass over the release succeeds.  It sizes the replica group by
the count that is wanted of the release, and the release then sees that count
(`ends_release`).  The store stays settled.
-/
import Cutover.Proofs.Feedback.Settled

namespace Cutover.Feedback

set_option autoImplicit false

variable {s s' : Store} {d : Descriptor} {r : Release}

/-- The size of the replica group of a key, zero without one. -/
def groupSize (s : Store) (key : String) : Nat :=
  ((s.getByKey .replicaGroups key).map (·.spec.replicas)).getD 0

theorem groupSize_of_agrees (agrees : Store.Agrees .replicaGroups s s') (key : String) :
    groupSize s' key = groupSize s key := by
  unfold groupSize
  rw [agrees.getByKey]

/-! ## The group -/

theorem Settled.autoscaledGroup?_eq_none (settled : Settled s d r) :
    ReleasePass.autoscaledGroup? s r = none := by
  have none_ : ((s.matching .autoscalers (Selector.ofRelease r.name)).any
      fun a => a.info.ns = r.info.ns) = false := by
    rw [List.any_eq_false]
    exact fun a member => by simpa using settled.unbound a member
  unfold ReleasePass.autoscaledGroup?
  split
  · rfl
  · simp [none_]

theorem exists_mapM_ok {ε α β : Type} {f : α → Except ε β} {xs : List α}
    (each : ∀ x ∈ xs, ∃ y, f x = .ok y) : ∃ ys, xs.mapM f = .ok ys := by
  induction xs with
  | nil => exact ⟨[], rfl⟩
  | cons x xs ih =>
      obtain ⟨here, there⟩ := List.forall_mem_cons.1 each
      obtain ⟨y, same⟩ := here
      obtain ⟨ys, rest⟩ := ih there
      refine ⟨y :: ys, ?_⟩
      rw [List.mapM_cons, same, rest]
      rfl

theorem Settled.dependencyEnv_eq_ok (settled : Settled s d r) :
    ∃ env, Workload.dependencyEnv s r = .ok env := by
  have each : ∀ dep ∈ r.spec.runtime.dependencies, ∃ env,
      Workload.addresses s r dep = .ok env := by
    intro dep member
    obtain ⟨found, same⟩ := Option.isSome_iff_exists.1 (settled.dependencies dep member)
    unfold Workload.addresses
    simp only [same]
    exact ⟨_, rfl⟩
  obtain ⟨envs, same⟩ := exists_mapM_ok each
  unfold Workload.dependencyEnv
  rw [same]
  exact ⟨_, rfl⟩

theorem Settled.desiredGroup_eq_ok (settled : Settled s d r) :
    ∃ group, ReleasePass.desiredGroup s r = .ok group ∧ group.key = r.key ∧
      group.spec.replicas = r.spec.numDesired := by
  obtain ⟨build, found⟩ := Option.isSome_iff_exists.1 settled.releaseBuilt
  obtain ⟨env, same⟩ := settled.dependencyEnv_eq_ok
  unfold ReleasePass.desiredGroup
  simp only [found, same]
  exact ⟨_, rfl, rfl, rfl⟩

/-- Where no autoscaler decides, the group becomes what the release asks for. -/
theorem ends_settleGroup_of_desired (sound : s.Sound)
    (none_ : ReleasePass.autoscaledGroup? s r = none) (wanted : r.spec.numDesired ≠ 0)
    {group : ReplicaGroup} (desired : ReleasePass.desiredGroup s r = .ok group) (ns name : String) :
    Pass.Ends (ReleasePass.settleGroup r ns name) s fun settled s' => ∃ stored,
      settled = some stored ∧ stored.spec = group.spec ∧
        s'.getByKey .replicaGroups group.key = some stored ∧
        (∀ j, j ≠ .replicaGroups → Store.Agrees j s s') ∧ s'.Sound := by
  unfold ReleasePass.settleGroup
  rw [if_neg wanted]
  refine Pass.ends_read ?_
  simp only [none_, desired]
  refine (Store.ends_apply sound group).within.bind ?_
  rintro ⟨stored, changed⟩ s' ⟨spec, found, others, sound'⟩
  exact Pass.ends_pure ⟨stored, rfl, spec, found, others, sound'⟩

theorem Settled.ends_settleGroup (settled : Settled s d r) {ns name : String}
    (reached : objectKey ns name = r.key) : Pass.Ends (ReleasePass.settleGroup r ns name) s
      fun group s' => Settled s' d r ∧
        (ObservedCounts.ofGroup group).desired = r.spec.numDesired ∧
        groupSize s' r.key = r.spec.numDesired := by
  by_cases zero : r.spec.numDesired = 0
  · unfold ReleasePass.settleGroup
    rw [if_pos zero]
    have deleted : Pass.Ends (ReleasePass.deleteGroup ns name) s
        fun _ s' => s' = (s.delete .replicaGroups ns name).2 :=
      Pass.Ends.within (Pass.ends_write rfl rfl)
    refine deleted.bind ?_
    rintro - s' rfl
    refine Pass.ends_pure ⟨?_, zero.symm, ?_⟩
    · exact settled.inert (.inr (.inr rfl)) (fun j ne => Store.agrees_delete ne ..)
        (settled.sound.delete ..)
    · unfold groupSize
      rw [Store.getByKey_delete, if_pos reached.symm, zero]
      rfl
  · obtain ⟨group, same, key, size⟩ := settled.desiredGroup_eq_ok
    refine (ends_settleGroup_of_desired settled.sound settled.autoscaledGroup?_eq_none zero same
      ns name).mono ?_
    rintro _ s' ⟨stored, rfl, spec, found, others, sound⟩
    refine ⟨settled.inert (.inr (.inr rfl)) others sound, ?_, ?_⟩
    · show stored.spec.replicas = _
      rw [spec, size]
    · unfold groupSize
      rw [← key, found]
      show stored.spec.replicas = _
      rw [spec, size]

/-! ## The pass -/

/-- The release gets another status. -/
theorem Settled.restate_release (settled : Settled s d r) {status : ReleaseStatus} {version : Nat}
    (replaces : Store.Replaces r { r with status, info.statusVersion := version } s s') :
    Settled s' d { r with status, info.statusVersion := version } := by
  have keeps : Keeps r { r with status, info.statusVersion := version } :=
    ⟨rfl, rfl, rfl, rfl, fun _ _ => rfl, fun _ has => has⟩
  exact settled.replace_active keeps settled.active rfl rfl rfl rfl replaces

/-- **A pass over a settled release.**  The release sees the count that is wanted of it,
and its group has that size. -/
theorem Settled.ends_release (settled : Settled s d r) (now : Nat) :
    Pass.Ends (ReleasePass.run r.key now) s fun _ s' => ∃ r', Settled s' d r' ∧
      r'.key = r.key ∧ r'.spec = r.spec ∧ r'.status.numDesired = r.spec.numDesired ∧
      groupSize s' r.key = r.spec.numDesired := by
  have reached := settled.reached
  unfold ReleasePass.run
  generalize splitKey r.key = parts at reached ⊢
  obtain ⟨ns, name⟩ := parts
  have found {s : Store} (settled : Settled s d r) : s.get .releases ns name = some r := by
    unfold Store.get
    rw [reached, settled.found]
  refine Pass.ends_read ?_
  simp only [found settled]
  refine (settled.ends_settleGroup reached).bind ?_
  rintro group s₁ ⟨settled₁, observed, sized⟩
  refine Pass.ends_read ?_
  generalize ReleasePass.diagnosis? s₁ r _ _ _ now = diagnosis
  by_cases same : r.nextStatus (ObservedCounts.ofGroup group) diagnosis now = r.status
  · rw [if_neg (not_not_intro same)]
    refine Pass.ends_pure ⟨r, settled₁, rfl, rfl, ?_, sized⟩
    rw [← same]
    exact observed
  · rw [if_pos same]
    refine (Store.ends_modifyStatus settled₁.sound (found settled₁) _).within.discard.bind ?_
    rintro - s' ⟨-, version, replaces⟩
    refine Pass.ends_pure ⟨_, settled₁.restate_release replaces, rfl, rfl, observed, ?_⟩
    rw [groupSize_of_agrees (replaces.others .replicaGroups (by decide))]
    exact sized

end Cutover.Feedback
