/-
# Cutover.Proofs.Deployment.Course -- what passes are made of

A pass over a descriptor, a pass over a release and a round of the scaler write one object at a
time, and what they create has no time of its own until the store dates it (`proceeds_run`,
`ReleasePass.proceeds_run`, `Scaler.proceeds_evaluateAll`).  Only the releases need a look: of
those that a pass stores, one that is new has been cut in the same pass.

So whatever runs over a store and whoever else writes to it, the feed tells of it all
(`history_course`).
-/
import Cutover.Proofs.Deployment.Turn
import Cutover.Proofs.Store.Birth
import Cutover.Release.Pass
import Cutover.Scaling.Evaluation

namespace Cutover

set_option autoImplicit false

open Pass Store

variable {s : Store}

/-! ## A pass over a descriptor -/

namespace Deployment

variable {d : Descriptor} {now : Nat}

theorem proceeds_removeOwned (sound : s.Sound) (key : String) : Proceeds (removeOwned key) s := by
  have each (k : Kind) {s : Store} (sound : s.Sound) : Proceeds (removeOwnedOf k key) s := by
    have removed : ∀ o ∈ (s.list k).filter (fun o => o.info.owner = some key), ∀ t, t.Sound →
        Proceeds (Pass.write fun u => .ok (u.delete k o.info.ns o.info.name)) t :=
      fun o _ t sound => proceeds_delete sound k o.info.ns o.info.name id
    unfold removeOwnedOf
    exact leads_read ((proceeds_mapM removed sound).bind sound fun _ s' _ => proceeds_pure _ s')
  unfold removeOwned
  refine (each .releases sound).bind sound fun _ s₁ sound₁ => ?_
  refine (each .autoscalers sound₁).bind sound₁ fun _ s₂ sound₂ => ?_
  refine (each .trafficSplits sound₂).bind sound₂ fun _ s₃ sound₃ => ?_
  exact (each .configMaps sound₃).bind sound₃ fun _ s' _ => proceeds_pure _ s'

theorem proceeds_ensureMap (d : Descriptor) (c : Configuration) (s : Store) :
    Proceeds (Configuration.ensureMap d c) s := by
  unfold Proceeds Leads Configuration.ensureMap
  simp only
  cases s.get .configMaps d.targetNamespace (c.mapName d.spec.app) with
  | some _ => exact Reaches.refl s
  | none =>
      cases done : s.create (Configuration.mapFor d c) with
      | ok made => exact .single (advance_create rfl done)
      | error e => cases e <;> exact Reaches.refl s

theorem proceeds_configure (sound : s.Sound) (d : Descriptor) : Proceeds (configure d) s := by
  unfold configure
  refine leads_read ?_
  cases Configuration.resolve s d with
  | none => exact proceeds_pure none s
  | some c =>
      exact ((proceeds_ensureMap d c s).within _).bind sound fun _ s' _ => proceeds_pure _ s'

theorem proceeds_stamp (sound : s.Sound) (d : Descriptor) (observed : DescriptorStatus) :
    Proceeds (stamp d observed) s := by
  unfold stamp
  split
  · exact (proceeds_modifyStatus sound ..).map _
  · exact proceeds_pure () s

theorem proceeds_report (sound : s.Sound) (d : Descriptor) (observed : DescriptorStatus) :
    Proceeds (report d observed) s := by
  unfold report
  split
  · exact (proceeds_modifyStatus sound ..).map _
  · exact proceeds_pure () s

theorem proceeds_persist (sound : s.Sound) {r : Release} (before : Release)
    (undated : r.info.isPersisted = false → r.info.createdAt = 0) :
    Proceeds (persist r before) s := by
  unfold persist
  split
  · rename_i new
    exact proceeds_create (undated (by simpa using new))
  · split
    · exact proceeds_updateSpec sound r
    · exact proceeds_pure r s

theorem proceeds_collectGarbage (sound : s.Sound) (rs : List Release) (now : Nat) :
    Proceeds (Release.collectGarbage rs now) s := by
  have removed : ∀ r ∈ Release.expired rs now, ∀ t, t.Sound → Proceeds (Release.remove r) t :=
    fun r _ t sound => proceeds_delete sound .releases r.info.ns r.info.name id
  unfold Release.collectGarbage
  exact (proceeds_mapM removed sound).bind sound fun _ s' _ => proceeds_pure _ s'

theorem proceeds_reconcile (sound : s.Sound) (d : Descriptor) (rs : List Release) :
    Proceeds (Binding.reconcile d rs) s := by
  have removed (scalers : List Autoscaler) : Proceeds (scalers.forM Binding.remove) s :=
    proceeds_forM (fun a _ t sound =>
      proceeds_delete sound .autoscalers a.info.ns a.info.name fun _ => ()) sound
  unfold Binding.reconcile
  refine leads_read ?_
  cases Binding.boundRelease? d rs with
  | none => exact (removed _).bind sound fun _ s' _ => proceeds_pure d s'
  | some r =>
      refine (removed _).bind sound fun _ s₁ sound₁ => ?_
      exact (proceeds_apply sound₁ rfl).bind sound₁ fun _ s' _ => proceeds_pure _ s'

theorem proceeds_publish (sound : s.Sound) (d : Descriptor) (rs : List Release) :
    Proceeds (Routing.publish d rs) s := by
  unfold Routing.publish
  exact (proceeds_apply sound rfl).bind sound fun _ s' _ => proceeds_pure _ s'

theorem proceeds_carryOut (sound : s.Sound) {result : Ramp.Result} {before : List Release}
    (undated : ∀ r ∈ result.releases, r.info.isPersisted = false → r.info.createdAt = 0)
    (observed : DescriptorStatus) (now : Nat) :
    Proceeds (carryOut result observed before now) s := by
  have filed {t : Store} (sound : t.Sound) :
      Proceeds (persistAll (result.releases.zip before)) t :=
    proceeds_mapM (fun p member t sound =>
      proceeds_persist sound p.2 (undated p.1 (List.of_mem_zip member).1)) sound
  unfold carryOut
  refine ((proceeds_stamp sound ..).within _).bind sound fun _ s₁ sound₁ => ?_
  refine ((filed sound₁).within _).bind sound₁ fun rs s₂ sound₂ => ?_
  refine (((proceeds_collectGarbage sound₂ rs now).within _).map _).bind sound₂ ?_
  intro _ s₃ sound₃
  refine ((proceeds_reconcile sound₃ ..).within _).bind sound₃ fun d s₄ sound₄ => ?_
  refine (((proceeds_publish sound₄ d rs).within _).map _).bind sound₄ fun _ s₅ sound₅ => ?_
  exact (proceeds_report sound₅ ..).within _

/-- Of the releases that a pass starts from only one that it has cut is new, and that has no time
of creation. -/
theorem undated_of_mem_candidates (sound : s.Sound) {build : Build}
    {config : Option (Configuration × String)} {o : Release}
    (member : o ∈ candidates s d build config) (new : o.info.isPersisted = false) :
    o.info.createdAt = 0 := by
  have stored : o ∉ s.matching .releases (Selector.ofTarget d.spec.app d.spec.target) := by
    intro listed
    have accepted := sound.accepted _ _ o ((mem_ofTarget sound).1 listed).1
    rw [new] at accepted
    cases accepted
  unfold candidates at member
  simp only [Release.sortNewestFirst, List.mem_mergeSort] at member
  split at member
  · exact absurd member stored
  · rw [List.mem_append, List.mem_singleton] at member
    rw [member.resolve_left stored]
    rfl

theorem proceeds_deploy (sound : s.Sound) (d : Descriptor) (now : Nat) :
    Proceeds (deploy d now) s := by
  unfold deploy
  refine (proceeds_configure sound d).bind sound fun config s₁ sound₁ => leads_read ?_
  cases s₁.get .builds "" d.spec.build with
  | none => exact proceeds_throw _ s₁
  | some build =>
      refine leads_read ?_
      simp only
      cases passed : Ramp.pass d (candidates s₁ d build config) now with
      | error e => exact proceeds_throw e s₁
      | ok result =>
          have undated : ∀ r ∈ result.releases, r.info.isPersisted = false →
              r.info.createdAt = 0 := by
            intro r member new
            have ramped := ramped_of_pass passed
            rw [← ramped.map_fst_zip] at member
            obtain ⟨p, inside, rfl⟩ := List.mem_map.1 member
            have rework := ramped.rework p inside
            have same : p.1.info.createdAt = p.2.info.createdAt := by rw [rework.info]
            rw [same]
            exact undated_of_mem_candidates sound₁ (List.of_mem_zip inside).2
              (rework.isPersisted.symm.trans new)
          exact (proceeds_carryOut sound₁ undated ..).bind sound₁ fun _ s' _ => proceeds_pure _ s'

/-- **A pass over a descriptor writes one object after the other.** -/
theorem proceeds_run (sound : s.Sound) (key : String) (now : Nat) : Proceeds (run key now) s := by
  unfold run
  refine leads_read ?_
  cases s.getByKey .descriptors key with
  | some d => exact proceeds_deploy sound d now
  | none =>
      exact (((proceeds_removeOwned sound key).within _).map _).bind sound fun _ s' _ =>
        proceeds_pure _ s'

end Deployment

/-! ## A pass over a release -/

namespace ReleasePass

theorem proceeds_deleteGroup (sound : s.Sound) (ns name : String) :
    Proceeds (deleteGroup ns name) s :=
  (proceeds_delete sound .replicaGroups ns name fun _ => ()).within _

theorem proceeds_settleGroup (sound : s.Sound) (r : Release) (ns name : String) :
    Proceeds (settleGroup r ns name) s := by
  unfold settleGroup
  split
  · exact (proceeds_deleteGroup sound ns name).bind sound fun _ s' _ => proceeds_pure _ s'
  · refine leads_read ?_
    cases autoscaledGroup? s r with
    | some live => exact proceeds_pure _ s
    | none =>
        simp only
        cases asked : desiredGroup s r with
        | error e => exact proceeds_throw e s
        | ok desired =>
            have undated : desired.info.createdAt = 0 := by
              unfold desiredGroup at asked
              split at asked
              · cases asked
              · cases env : Workload.dependencyEnv s r with
                | error e =>
                    rw [env] at asked
                    cases asked
                | ok vars =>
                    rw [env] at asked
                    rw [← Except.ok.inj asked]
                    rfl
            exact ((proceeds_apply sound undated).within _).bind sound fun _ s' _ =>
              proceeds_pure _ s'

/-- **A pass over a release writes one object after the other.** -/
theorem proceeds_run (sound : s.Sound) (key : String) (now : Nat) : Proceeds (run key now) s := by
  unfold run
  simp only
  refine leads_read ?_
  cases s.get .releases (splitKey key).1 (splitKey key).2 with
  | none =>
      exact (proceeds_deleteGroup sound ..).bind sound fun _ s' _ => proceeds_pure _ s'
  | some r =>
      refine (proceeds_settleGroup sound r ..).bind sound fun group s₁ sound₁ => leads_read ?_
      split
      · exact (((proceeds_modifyStatus sound₁ ..).within _).map _).bind sound₁ fun _ s' _ =>
          proceeds_pure _ s'
      · exact proceeds_pure _ s₁

end ReleasePass

/-! ## A round of the scaler -/

namespace Scaler

theorem proceeds_evaluateOne (sound : s.Sound) (scaler : Scaler) (a : Autoscaler) :
    Proceeds (evaluateOne scaler a) s := by
  unfold evaluateOne
  refine leads_read ?_
  simp only
  cases s.get .replicaGroups a.info.ns a.spec.release with
  | none => exact proceeds_pure _ s
  | some group =>
      simp only
      generalize scaler.evaluate _ _ _ _ _ = answer
      have noted {t : Store} (sound : t.Sound) : Proceeds (do
          discard <| Store.modifyStatus .autoscalers a.info.ns a.name fun a =>
            noted a.status group.spec.replicas answer.1 s.clock
          return (some (a.key, answer.1), answer.2)) t :=
        ((proceeds_modifyStatus sound ..).map _).bind sound fun _ s' _ => proceeds_pure _ s'
      cases decision : answer.1 with
      | none =>
          rw [decision] at noted
          exact noted sound
      | some n =>
          rw [decision] at noted
          exact ((proceeds_modifySpec sound ..).map _).bind sound fun _ s₁ sound₁ => noted sound₁

theorem proceeds_evaluateEach (sound : s.Sound) (scaler : Scaler) (as : List Autoscaler) :
    Proceeds (evaluateEach scaler as) s := by
  induction as generalizing s scaler with
  | nil => exact proceeds_pure _ s
  | cons a rest ih =>
      refine (proceeds_evaluateOne sound scaler a).bind sound fun first s₁ sound₁ => ?_
      exact (ih sound₁ first.2).bind sound₁ fun _ s' _ => proceeds_pure _ s'

/-- **A round of the scaler writes one object after the other.** -/
theorem proceeds_evaluateAll (sound : s.Sound) (scaler : Scaler) :
    Proceeds (evaluateAll scaler) s := by
  unfold evaluateAll
  exact leads_read (proceeds_evaluateEach sound scaler _)

end Scaler

/-! ## Everything that happens -/

/-- A pass over a descriptor or a release at a time, a round of the scaler, or a call of some
client. -/
inductive Deed where
  | deployment (key : String) (now : Nat)
  | release (key : String) (now : Nat)
  | scaling (scaler : Scaler)
  | call (r : Request)

/-- The store after a deed, whether it succeeds or fails. -/
def Deed.leave (s : Store) : Deed → Store
  | deployment key now => (Deployment.run key now).left s
  | release key now => (ReleasePass.run key now).left s
  | scaling scaler => scaler.evaluateAll.left s
  | call r => s.serve r

/-- The store after some deeds. -/
def Store.course (s : Store) (deeds : List Deed) : Store := deeds.foldl Deed.leave s

theorem history_leave (sound : s.Sound) (deed : Deed) :
    (deed.leave s).Sound ∧ ∃ events, (deed.leave s).feed = s.feed ++ events ∧
      History s events (deed.leave s) := by
  have of_proceeds {ε α : Type} {part : Pass ε α} (proceeds : part.Proceeds s) :
      (part.left s).Sound ∧ ∃ events, (part.left s).feed = s.feed ++ events ∧
        History s events (part.left s) :=
    ⟨proceeds.left.sound sound, proceeds.left.history sound⟩
  cases deed with
  | deployment key now => exact of_proceeds (Deployment.proceeds_run sound key now)
  | release key now => exact of_proceeds (ReleasePass.proceeds_run sound key now)
  | scaling scaler => exact of_proceeds (Scaler.proceeds_evaluateAll sound scaler)
  | call r =>
      have next := next_serve s r
      exact ⟨sound.next next, next.history sound⟩

/-- **The feed tells of everything that happens**, one commit after the other. -/
theorem history_course (sound : s.Sound) (deeds : List Deed) :
    (s.course deeds).Sound ∧ ∃ events, (s.course deeds).feed = s.feed ++ events ∧
      History s events (s.course deeds) := by
  induction deeds generalizing s with
  | nil => exact ⟨sound, [], (List.append_nil _).symm, .nil s⟩
  | cons deed rest ih =>
      obtain ⟨sound₁, events, told, history⟩ := history_leave sound deed
      obtain ⟨sound', more, told', history'⟩ := ih sound₁
      refine ⟨sound', events ++ more, ?_, history.trans history'⟩
      rw [← List.append_assoc, ← told]
      exact told'

end Cutover
