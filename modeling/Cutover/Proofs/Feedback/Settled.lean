/-
# Cutover.Proofs.Feedback.Settled -- stores in which nothing is due

`Settled s d r` says that the rollout of a descriptor has come to rest at one release:
it is active, the newest that may be given traffic and current, no promotion is under
way, and no autoscaler is wanted or bound.  Nothing is said of the counts, nor of what
else the store holds.

A pass over the descriptor or the release is a sequence of writes.  Every write a pass
makes keeps the store settled: one of a kind that a settled store does not ask about
(`Settled.inert`), a descriptor's status (`Settled.restate`), a release
(`Settled.replace_active`, `Settled.replace_other`), the deletion of another release
(`Settled.remove_release`) or of an autoscaler (`Settled.remove_autoscaler`).
-/
import Cutover.Deployment.Pass
import Cutover.Proofs.Ramp.Rest
import Cutover.Proofs.Store.Query
import Cutover.Release.Pass

namespace Cutover.Feedback

set_option autoImplicit false

variable {s s' : Store} {d : Descriptor} {r : Release}

/-- A descriptor's configuration and the name of its config map. -/
def configOf (s : Store) (d : Descriptor) : Option (Configuration × String) :=
  (Configuration.resolve s d).map fun c => (c, c.mapName d.spec.app)

/-- The stored releases of a descriptor. -/
def releasesOf (s : Store) (d : Descriptor) : List Release :=
  s.matching .releases (Selector.ofTarget d.spec.app d.spec.target)

structure Settled (s : Store) (d : Descriptor) (r : Release) : Prop where
  sound : s.Sound
  described : s.getByKey .descriptors d.key = some d
  latest : d.spec.deployMode = .latest
  unscaled : d.needsAutoscaler = false
  listed : r ∈ releasesOf s d
  active : r.spec.role = .active
  /-- No other release has a part in the split, or is deployable and not older. -/
  newest : ∀ o ∈ releasesOf s d, o.key ≠ r.key → Release.Behind r o
  current : Deployment.isCurrent d.spec.fingerprint (configOf s d) r = true
  built : (s.get .builds "" d.spec.build).isSome
  releaseBuilt : (s.get .builds "" r.spec.build).isSome
  dependencies : ∀ dep ∈ r.spec.runtime.dependencies, (s.get .descriptors ""
    (DescriptorSpec.scopedName dep.name (dep.target.getD r.spec.target))).isSome
  unbound : ∀ a ∈ s.matching .autoscalers (Selector.ofRelease r.name), a.info.ns ≠ r.info.ns
  /-- A pass over the key of the release finds it. -/
  reached : objectKey (splitKey r.key).1 (splitKey r.key).2 = r.key
  /-- The index entry of the release is that of no other. -/
  separate : '\x1f' ∉ d.spec.app.toList ∧ '\x1f' ∉ r.key.toList

theorem configOf_of_agrees {d' : Descriptor} (agrees : Store.Agrees .appConfigs s s')
    (spec : d'.spec = d.spec) : configOf s' d' = configOf s d := by
  unfold configOf Configuration.resolve Configuration.appEntries Configuration.sharedEntries
    Configuration.merged
  simp only [agrees.matching, spec]

theorem Settled.found (settled : Settled s d r) : s.getByKey .releases r.key = some r :=
  ((Store.mem_ofTarget settled.sound).1 settled.listed).1

/-- A write that leaves descriptors, builds and configs alone keeps a store settled if the
release stays listed and newest, and unbound. -/
theorem Settled.transfer (settled : Settled s d r) (sound : s'.Sound)
    (descriptors : Store.Agrees .descriptors s s') (builds : Store.Agrees .builds s s')
    (appConfigs : Store.Agrees .appConfigs s s') (listed : r ∈ releasesOf s' d)
    (newest : ∀ o ∈ releasesOf s' d, o.key ≠ r.key → Release.Behind r o)
    (unbound : ∀ a ∈ s'.matching .autoscalers (Selector.ofRelease r.name),
      a.info.ns ≠ r.info.ns) : Settled s' d r where
  sound := sound
  described := by rw [descriptors.getByKey]; exact settled.described
  latest := settled.latest
  unscaled := settled.unscaled
  listed := listed
  active := settled.active
  newest := newest
  current := by rw [configOf_of_agrees appConfigs rfl]; exact settled.current
  built := by rw [builds.get]; exact settled.built
  releaseBuilt := by rw [builds.get]; exact settled.releaseBuilt
  dependencies := fun dep member => by
    rw [descriptors.get]
    exact settled.dependencies dep member
  unbound := unbound
  reached := settled.reached
  separate := settled.separate

/-! ## Writes of other kinds -/

/-- A settled store does not ask about config maps, traffic splits and replica groups. -/
theorem Settled.inert {k : Kind} (settled : Settled s d r)
    (inert : k = .configMaps ∨ k = .trafficSplits ∨ k = .replicaGroups)
    (others : ∀ j, j ≠ k → Store.Agrees j s s') (sound : s'.Sound) : Settled s' d r := by
  have agrees (j : Kind) (ne : j ≠ .configMaps ∧ j ≠ .trafficSplits ∧ j ≠ .replicaGroups) :
      Store.Agrees j s s' := by
    refine others j ?_
    rintro rfl
    rcases inert with same | same | same
    · exact ne.1 same
    · exact ne.2.1 same
    · exact ne.2.2 same
  have listed : releasesOf s' d = releasesOf s d := (agrees .releases (by decide)).matching _
  refine settled.transfer sound (agrees _ (by decide)) (agrees _ (by decide))
    (agrees _ (by decide)) ?_ ?_ ?_
  · rw [listed]; exact settled.listed
  · rw [listed]; exact settled.newest
  · rw [(agrees .autoscalers (by decide)).matching]; exact settled.unbound

/-- The descriptor gets another status. -/
theorem Settled.restate (settled : Settled s d r) {d' : Descriptor}
    (replaces : Store.Replaces d d' s s') (spec : d'.spec = d.spec) (key : d'.key = d.key) :
    Settled s' d' r := by
  have builds := replaces.others .builds (by decide)
  have releases := replaces.others .releases (by decide)
  have autoscalers := replaces.others .autoscalers (by decide)
  have appConfigs := replaces.others .appConfigs (by decide)
  have listed : releasesOf s' d' = releasesOf s d := by
    unfold releasesOf
    rw [spec, releases.matching]
  have unscaled : d'.needsAutoscaler = d.needsAutoscaler := by
    unfold Object.needsAutoscaler
    rw [spec]
  constructor
  · exact replaces.sound
  · rw [key]; exact replaces.here
  · rw [spec]; exact settled.latest
  · rw [unscaled]; exact settled.unscaled
  · rw [listed]; exact settled.listed
  · exact settled.active
  · rw [listed]; exact settled.newest
  · rw [configOf_of_agrees appConfigs spec, spec]; exact settled.current
  · rw [builds.get, spec]; exact settled.built
  · rw [builds.get]; exact settled.releaseBuilt
  · intro dep member
    have present := settled.dependencies dep member
    unfold Store.get at present ⊢
    by_cases same : objectKey "" (DescriptorSpec.scopedName dep.name
        (dep.target.getD r.spec.target)) = d.key
    · rw [same, replaces.here]; rfl
    · rw [replaces.there _ same]; exact present
  · rw [autoscalers.matching]; exact settled.unbound
  · exact settled.reached
  · rw [spec]; exact settled.separate

/-! ## Writes of releases -/

/-- What a release keeps when a pass replaces it: its identity and all labels but, perhaps,
the mark of a promotion. -/
structure Keeps (o o' : Release) : Prop where
  name : o'.info.name = o.info.name
  ns : o'.info.ns = o.info.ns
  createdAt : o'.info.createdAt = o.info.createdAt
  accepted : o'.info.isPersisted = o.info.isPersisted
  labels : ∀ label, label ≠ Label.promotionTarget → o'.label? label = o.label? label
  mark : ∀ value, o'.label? Label.promotionTarget = some value →
    o.label? Label.promotionTarget = some value

variable {o o' : Release}

theorem Keeps.key (keeps : Keeps o o') : o'.key = o.key := by
  unfold Object.key Meta.key
  rw [keeps.name, keeps.ns]

theorem Keeps.has (keeps : Keeps o o') {label value : String}
    (has : o'.label? label = some value) : o.label? label = some value := by
  by_cases mark : label = Label.promotionTarget
  · subst mark
    exact keeps.mark value has
  · exact (keeps.labels label mark).symm.trans has

theorem Keeps.recency_left (keeps : Keeps o o') (x : Release) :
    Release.recency o' x = Release.recency o x := by
  unfold Release.recency
  rw [keeps.name, keeps.createdAt, keeps.accepted]

theorem Keeps.recency_right (keeps : Keeps o o') (x : Release) :
    Release.recency x o' = Release.recency x o := by
  unfold Release.recency
  rw [keeps.name, keeps.createdAt, keeps.accepted]

theorem promotionTarget_ne_app (value value' : String) :
    Label.promotionTarget.toList ++ '=' :: value.toList ≠
      Label.app.toList ++ '=' :: value'.toList := by
  intro same
  have letter := congrArg (fun text => text[13]?) same
  revert letter
  show some 'p' = some 'a' → False
  decide

/-- Replacing a release adds no entry. -/
theorem mem_keys_of_replaces (keeps : Keeps o o') (replaces : Store.Replaces o o' s s')
    {text : String} (member : text ∈ s'.index.keys) : text ∈ s.index.keys := by
  rw [replaces.index, Index.mem_keys_relabel] at member
  rcases member with added | ⟨-, member⟩
  · obtain ⟨label, value, has, lacks, -⟩ := Index.mem_entriesBeyond.1 added
    exact absurd (keeps.has has) lacks
  · exact member

/-- Replacing a release drops at most the entry of its mark. -/
theorem entry_mem_of_replaces (keeps : Keeps o o') (replaces : Store.Replaces o o' s s')
    {app key : String} (app_free : '\x1f' ∉ app.toList) (key_free : '\x1f' ∉ key.toList)
    (member : Index.entry .releases Label.app app key ∈ s.index.keys) :
    Index.entry .releases Label.app app key ∈ s'.index.keys := by
  rw [replaces.index, Index.mem_keys_relabel]
  refine .inr ⟨fun dropped => ?_, member⟩
  obtain ⟨label, value, has, lacks, same⟩ := Index.mem_entriesBeyond.1 dropped
  by_cases mark : label = Label.promotionTarget
  · subst mark
    obtain ⟨run, -⟩ := Index.entry_eq_entry (by decide) app_free key_free same.symm
    exact promotionTarget_ne_app value app run
  · exact lacks ((keeps.labels label mark).trans has)

/-- A listed release after one was replaced is the new one, or another that was listed. -/
theorem mem_of_replaces (sound : s.Sound) (stored : s.getByKey .releases o.key = some o)
    (keeps : Keeps o o') (replaces : Store.Replaces o o' s s') {x : Release}
    (member : x ∈ releasesOf s' d) :
    (x = o' ∧ o ∈ releasesOf s d) ∨ (x.key ≠ o.key ∧ x ∈ releasesOf s d) := by
  obtain ⟨stored', entry, app, target⟩ := (Store.mem_ofTarget replaces.sound).1 member
  have entry := mem_keys_of_replaces keeps replaces entry
  by_cases same : x.key = o.key
  · left
    have new : x = o' := by
      rw [same, replaces.here] at stored'
      exact (Option.some.inj stored').symm
    subst new
    refine ⟨rfl, (Store.mem_ofTarget sound).2 ⟨stored, same ▸ entry, ?_, ?_⟩⟩
    · rw [← keeps.labels _ (by decide)]; exact app
    · rw [← keeps.labels _ (by decide)]; exact target
  · right
    rw [replaces.there _ same] at stored'
    exact ⟨same, (Store.mem_ofTarget sound).2 ⟨stored', entry, app, target⟩⟩

theorem isCurrent_of_keeps {hash : String} {config : Option (Configuration × String)}
    (keeps : Keeps o o') (spec : o'.spec.config = o.spec.config) :
    Deployment.isCurrent hash config o' = Deployment.isCurrent hash config o := by
  unfold Deployment.isCurrent
  rw [keeps.labels _ (by decide), spec]

/-- Another release is replaced. -/
theorem Settled.replace_other (settled : Settled s d r)
    (stored : s.getByKey .releases o.key = some o) (keeps : Keeps o o') (ne : o.key ≠ r.key)
    (notActive : o'.spec.role ≠ .active) (notTarget : o'.spec.role ≠ .target)
    (deployable : Release.isDeployable o' = true → Release.isDeployable o = true)
    (replaces : Store.Replaces o o' s s') : Settled s' d r := by
  have autoscalers := replaces.others .autoscalers (by decide)
  obtain ⟨-, entry, app, target⟩ := (Store.mem_ofTarget settled.sound).1 settled.listed
  refine settled.transfer replaces.sound (replaces.others _ (by decide))
    (replaces.others _ (by decide)) (replaces.others _ (by decide)) ?_ ?_ ?_
  · refine (Store.mem_ofTarget replaces.sound).2 ⟨?_, ?_, app, target⟩
    · rw [replaces.there _ ne.symm]; exact settled.found
    · exact entry_mem_of_replaces keeps replaces settled.separate.1 settled.separate.2 entry
  · intro x member other
    rcases mem_of_replaces settled.sound stored keeps replaces member with ⟨rfl, was⟩ | ⟨-, was⟩
    · refine ⟨notActive, notTarget, fun h => ?_⟩
      rw [keeps.recency_right]
      exact (settled.newest o was ne).older (deployable h)
    · exact settled.newest x was other
  · rw [autoscalers.matching]; exact settled.unbound

/-- The settled release itself is replaced; it stays active, and its count and status are
free. -/
theorem Settled.replace_active (settled : Settled s d r) {r' : Release} (keeps : Keeps r r')
    (active : r'.spec.role = .active) (config : r'.spec.config = r.spec.config)
    (build : r'.spec.build = r.spec.build) (scope : r'.spec.target = r.spec.target)
    (runtime : r'.spec.runtime = r.spec.runtime) (replaces : Store.Replaces r r' s s') :
    Settled s' d r' := by
  have descriptors := replaces.others .descriptors (by decide)
  have builds := replaces.others .builds (by decide)
  have autoscalers := replaces.others .autoscalers (by decide)
  have appConfigs := replaces.others .appConfigs (by decide)
  obtain ⟨-, entry, app, target⟩ := (Store.mem_ofTarget settled.sound).1 settled.listed
  have key := keeps.key
  constructor
  · exact replaces.sound
  · rw [descriptors.getByKey]; exact settled.described
  · exact settled.latest
  · exact settled.unscaled
  · refine (Store.mem_ofTarget replaces.sound).2 ⟨?_, ?_, ?_, ?_⟩
    · rw [key]; exact replaces.here
    · rw [key]
      exact entry_mem_of_replaces keeps replaces settled.separate.1 settled.separate.2 entry
    · rw [keeps.labels _ (by decide)]; exact app
    · rw [keeps.labels _ (by decide)]; exact target
  · exact active
  · intro x member other
    rw [key] at other
    rcases mem_of_replaces settled.sound settled.found keeps replaces member with
      ⟨rfl, -⟩ | ⟨-, was⟩
    · exact absurd key other
    · have behind := settled.newest x was other
      refine ⟨behind.not_active, behind.not_target, fun h => ?_⟩
      rw [keeps.recency_left]
      exact behind.older h
  · rw [configOf_of_agrees appConfigs rfl, isCurrent_of_keeps keeps config]; exact settled.current
  · rw [builds.get]; exact settled.built
  · rw [builds.get, build]; exact settled.releaseBuilt
  · intro dep member
    rw [runtime] at member
    rw [descriptors.get, scope]
    exact settled.dependencies dep member
  · have name : r'.name = r.name := keeps.name
    rw [autoscalers.matching, name, keeps.ns]
    exact settled.unbound
  · rw [key]; exact settled.reached
  · rw [key]; exact settled.separate

/-! ## Deletions -/

/-- A deletion adds no entry. -/
theorem mem_keys_of_delete {k : Kind} {ns name text : String}
    (member : text ∈ (s.delete k ns name).2.index.keys) : text ∈ s.index.keys := by
  cases found : s.getByKey k (objectKey ns name) with
  | none =>
      unfold Store.delete at member
      simpa only [found] using member
  | some current =>
      rw [Store.index_delete_of_some found, Index.mem_keys_relabel] at member
      rcases member with added | ⟨-, member⟩
      · obtain ⟨label, value, has, -⟩ := Index.mem_entriesBeyond.1 added
        cases has
      · exact member

/-- A query has no new answers after a deletion. -/
theorem mem_ofRelease_of_delete {k : Kind} {ns name release : String} {o : Object k}
    (sound : s.Sound)
    (member : o ∈ (s.delete k ns name).2.matching k (Selector.ofRelease release)) :
    o ∈ s.matching k (Selector.ofRelease release) := by
  obtain ⟨stored, entry, label⟩ := (Store.mem_ofRelease (sound.delete k ns name)).1 member
  rw [Store.getByKey_delete] at stored
  split at stored
  · cases stored
  · exact (Store.mem_ofRelease sound).2 ⟨stored, mem_keys_of_delete entry, label⟩

theorem Settled.remove_autoscaler (settled : Settled s d r) (ns name : String) :
    Settled (s.delete .autoscalers ns name).2 d r := by
  have others (j : Kind) (ne : j ≠ .autoscalers) := Store.agrees_delete ne s ns name
  have listed : releasesOf (s.delete .autoscalers ns name).2 d = releasesOf s d :=
    (others .releases (by decide)).matching _
  refine settled.transfer (settled.sound.delete _ ns name) (others _ (by decide))
    (others _ (by decide)) (others _ (by decide)) ?_ ?_ ?_
  · rw [listed]; exact settled.listed
  · rw [listed]; exact settled.newest
  · exact fun a member => settled.unbound a (mem_ofRelease_of_delete settled.sound member)

/-- Deleting a release drops no entry of another whose entry is its own. -/
theorem entry_mem_of_delete {ns name app key : String} (ne : objectKey ns name ≠ key)
    (app_free : '\x1f' ∉ app.toList) (key_free : '\x1f' ∉ key.toList)
    (member : Index.entry .releases Label.app app key ∈ s.index.keys) :
    Index.entry .releases Label.app app key ∈ (s.delete .releases ns name).2.index.keys := by
  cases found : s.getByKey .releases (objectKey ns name) with
  | none =>
      unfold Store.delete
      simpa only [found] using member
  | some current =>
      rw [Store.index_delete_of_some found, Index.mem_keys_relabel]
      refine .inr ⟨fun dropped => ?_, member⟩
      obtain ⟨label, value, -, -, same⟩ := Index.mem_entriesBeyond.1 dropped
      exact ne (Index.entry_eq_entry (by decide) app_free key_free same.symm).2

/-- Another release is deleted. -/
theorem Settled.remove_release (settled : Settled s d r) {ns name : String}
    (ne : objectKey ns name ≠ r.key) : Settled (s.delete .releases ns name).2 d r := by
  have others (j : Kind) (ne : j ≠ .releases) := Store.agrees_delete ne s ns name
  have sound := settled.sound.delete .releases ns name
  obtain ⟨-, entry, app, target⟩ := (Store.mem_ofTarget settled.sound).1 settled.listed
  refine settled.transfer sound (others _ (by decide)) (others _ (by decide))
    (others _ (by decide)) ?_ ?_ ?_
  · refine (Store.mem_ofTarget sound).2 ⟨?_, ?_, app, target⟩
    · rw [Store.getByKey_delete, if_neg ne.symm]; exact settled.found
    · exact entry_mem_of_delete ne settled.separate.1 settled.separate.2 entry
  · intro x member other
    obtain ⟨stored, entry, app, target⟩ := (Store.mem_ofTarget sound).1 member
    rw [Store.getByKey_delete] at stored
    split at stored
    · cases stored
    · exact settled.newest x ((Store.mem_ofTarget settled.sound).2
        ⟨stored, mem_keys_of_delete entry, app, target⟩) other
  · rw [(others .autoscalers (by decide)).matching]; exact settled.unbound

end Cutover.Feedback
