/-
# Cutover.Proofs.Scaling.Steered -- stores in which an autoscaler decides a count

`Scaled s d r` says that a descriptor wants an autoscaler and has it attached to its newest
release, which is active and current and has instances, and that no promotion is under way.
The index files labels as plain texts, and what is found by a text that two labels share is lost
when one of them goes.  `Steered s d r` says besides that the texts by which the release
and the autoscaler are found are theirs alone (`Unshared`).

Each part of it is about one kind of objects: the releases, among which that one leads
(`Leading`), the autoscaler (`Attached`), and the group of instances.  A write of another kind
leaves the part alone (`of_agrees`).  Of its own kind a part is kept by what passes write:
releases that the ramp has moved, deletions of other releases, and autoscalers of other
releases that go.
-/
import Cutover.Proofs.Feedback.DeploymentTurn
import Cutover.Proofs.Feedback.ReleaseTurn
import Cutover.Proofs.Ramp.Rollout
import Cutover.Proofs.Release.Naming
import Cutover.Proofs.Release.Recency

namespace Cutover.Steering

set_option autoImplicit false

open Feedback Store

variable {s s' : Store} {d d' : Descriptor} {r r' o o' : Release}

/-! ## Entries of the index -/

/-- No label of an object has the text of an index entry, but the one that it was made of. -/
def Unshared (s : Store) (k : Kind) (label value key : String) : Prop :=
  ∀ o : Object k, s.getByKey k o.key = some o → ∀ label' value', o.label? label' = some value' →
    Index.entry k label' value' o.key = Index.entry k label value key →
    o.key = key ∧ label' = label ∧ value' = value

namespace Unshared

variable {k : Kind} {label value key : String}

/-- An entry is unshared whose parts are free of the characters between them. -/
theorem of_free (s : Store) (label_free : '\x1f' ∉ label.toList) (label_plain : '=' ∉ label.toList)
    (value_free : '\x1f' ∉ value.toList) (value_plain : '=' ∉ value.toList)
    (key_free : '\x1f' ∉ key.toList) : Unshared s k label value key := by
  intro o stored label' value' has same
  obtain ⟨run, key_eq⟩ := Index.entry_eq_entry label_free value_free key_free same
  have once : List.count '=' (label.toList ++ '=' :: value.toList) = 1 := by
    rw [List.count_append, List.count_cons_self, List.count_eq_zero.2 label_plain,
      List.count_eq_zero.2 value_plain]
  rw [← run, List.count_append, List.count_cons_self] at once
  obtain ⟨label_eq, value_eq⟩ :=
    Index.append_cons_cancel (List.count_eq_zero.1 (by omega)) label_plain run
  exact ⟨key_eq, String.toList_inj.1 label_eq, String.toList_inj.1 value_eq⟩

theorem of_agrees (unshared : Unshared s k label value key) (agrees : Agrees k s s') :
    Unshared s' k label value key := by
  intro o stored
  rw [agrees.getByKey] at stored
  exact unshared o stored

/-- An unshared entry goes only with its label. -/
theorem mem_keys_relabel (unshared : Unshared s k label value key) {o : Object k}
    (stored : s.getByKey k o.key = some o) {after : Dict String}
    (keeps : o.key = key → after.get? label = some value)
    (member : Index.entry k label value key ∈ s.index.keys) :
    Index.entry k label value key ∈ (s.index.relabel k o.key o.info.labels after).keys := by
  refine Index.mem_keys_relabel.2 (.inr ⟨fun dropped => ?_, member⟩)
  obtain ⟨label', value', has, lacks, same⟩ := Index.mem_entriesBeyond.1 dropped
  obtain ⟨key_eq, rfl, rfl⟩ := unshared o stored label' value' has same.symm
  exact lacks (keeps key_eq)

/-- An object is replaced by one whose labels are not filed under the text either. -/
theorem replace (unshared : Unshared s k label value key) {o o' : Object k}
    (key_eq : o'.key = o.key) (replaces : Replaces o o' s s')
    (apart : ∀ label' value', o'.label? label' = some value' →
      Index.entry k label' value' o.key = Index.entry k label value key →
      o.key = key ∧ label' = label ∧ value' = value) : Unshared s' k label value key := by
  intro x stored label' value' has same
  by_cases here : x.key = o.key
  · rw [here, replaces.here] at stored
    obtain rfl : o' = x := Option.some.inj stored
    rw [key_eq] at same ⊢
    exact apart label' value' has same
  · rw [replaces.there _ here] at stored
    exact unshared x stored label' value' has same

theorem delete (unshared : Unshared s k label value key) (ns name : String) :
    Unshared (s.delete k ns name).2 k label value key := by
  intro o stored
  rw [getByKey_delete] at stored
  split at stored
  · cases stored
  · exact unshared o stored

/-- The entry stays when the object of another key is deleted. -/
theorem mem_keys_delete (unshared : Unshared s k label value key) (sound : s.Sound)
    {ns name : String} (ne : objectKey ns name ≠ key)
    (member : Index.entry k label value key ∈ s.index.keys) :
    Index.entry k label value key ∈ (s.delete k ns name).2.index.keys := by
  cases found : s.getByKey k (objectKey ns name) with
  | none =>
      unfold Store.delete
      simpa only [found] using member
  | some current =>
      have key_eq := sound.keyed k _ current found
      rw [index_delete_of_some found, ← key_eq]
      refine unshared.mem_keys_relabel (key_eq ▸ found) (fun same => ?_) member
      exact absurd (key_eq.symm.trans same) ne

end Unshared

/-! ## The release -/

/-- A release is active and the newest of its descriptor that may be given traffic, and as its
descriptor asks; and there is no target. -/
structure Leading (s : Store) (d : Descriptor) (r : Release) : Prop where
  listed : r ∈ releasesOf s d
  active : r.spec.role = .active
  outdated : ∀ o ∈ releasesOf s d, o.key ≠ r.key → Release.Outdated r o
  current : Deployment.isCurrent d.spec.fingerprint (configOf s d) r = true
  built : (s.get .builds "" d.spec.build).isSome

theorem Leading.found (leading : Leading s d r) (sound : s.Sound) :
    s.getByKey .releases r.key = some r :=
  ((mem_ofTarget sound).1 leading.listed).1

theorem Leading.of_agrees (leading : Leading s d r) (releases : Agrees .releases s s')
    (builds : Agrees .builds s s') (appConfigs : Agrees .appConfigs s s') : Leading s' d r where
  listed := by
    unfold releasesOf
    rw [releases.matching]
    exact leading.listed
  active := leading.active
  outdated := by
    unfold releasesOf
    rw [releases.matching]
    exact leading.outdated
  current := by
    rw [configOf_of_agrees appConfigs rfl]
    exact leading.current
  built := by
    rw [builds.get]
    exact leading.built

theorem Leading.restate (leading : Leading s d r) (spec : d'.spec = d.spec) : Leading s d' r where
  listed := by
    unfold releasesOf
    rw [spec]
    exact leading.listed
  active := leading.active
  outdated := by
    unfold releasesOf
    rw [spec]
    exact leading.outdated
  current := by
    rw [configOf_of_agrees (Agrees.refl _ s) spec, spec]
    exact leading.current
  built := by
    rw [spec]
    exact leading.built

/-- The entry by which a descriptor finds a release is unshared. -/
def Listing (s : Store) (d : Descriptor) (r : Release) : Prop :=
  Unshared s .releases Label.app d.spec.app r.key

theorem Listing.replace (listing : Listing s d r) (stored : s.getByKey .releases o.key = some o)
    (keeps : Keeps o o') (replaces : Replaces o o' s s') : Listing s' d r :=
  Unshared.replace listing keeps.key replaces fun label value has same =>
    listing o stored label value (keeps.has has) same

/-- Another release is replaced. -/
theorem Leading.replace_other (leading : Leading s d r) (sound : s.Sound)
    (listing : Listing s d r) (stored : s.getByKey .releases o.key = some o) (keeps : Keeps o o')
    (ne : o.key ≠ r.key) (not_target : o'.spec.role ≠ .target)
    (deployable : Release.isDeployable o' = true → Release.isDeployable o = true)
    (replaces : Replaces o o' s s') : Leading s' d r where
  listed := by
    obtain ⟨found, entry, app, target⟩ := (mem_ofTarget sound).1 leading.listed
    refine (mem_ofTarget replaces.sound).2 ⟨?_, ?_, app, target⟩
    · rw [replaces.there _ ne.symm]
      exact found
    · rw [replaces.index]
      exact listing.mem_keys_relabel stored (fun same => absurd same ne) entry
  active := leading.active
  outdated := by
    intro x member other
    rcases mem_of_replaces sound stored keeps replaces member with ⟨rfl, was⟩ | ⟨-, was⟩
    · refine ⟨not_target, fun h => ?_⟩
      rw [keeps.recency_right]
      exact (leading.outdated o was ne).older (deployable h)
    · exact leading.outdated x was other
  current := by
    rw [configOf_of_agrees (replaces.others _ (by decide)) rfl]
    exact leading.current
  built := by
    rw [(replaces.others .builds (by decide)).get]
    exact leading.built

/-- The leading release itself is replaced; it stays active, and its count and status are
free. -/
theorem Leading.replace_active (leading : Leading s d r) (sound : s.Sound)
    (listing : Listing s d r) (keeps : Keeps r r') (active : r'.spec.role = .active)
    (config : r'.spec.config = r.spec.config) (replaces : Replaces r r' s s') :
    Leading s' d r' where
  listed := by
    obtain ⟨stored, entry, app, target⟩ := (mem_ofTarget sound).1 leading.listed
    rw [← keeps.labels _ (by decide)] at app target
    refine (mem_ofTarget replaces.sound).2 ⟨?_, ?_, app, target⟩
    · rw [keeps.key]
      exact replaces.here
    · rw [keeps.key, replaces.index]
      exact listing.mem_keys_relabel stored (fun _ => app) entry
  active := active
  outdated := by
    intro x member other
    rw [keeps.key] at other
    rcases mem_of_replaces sound (leading.found sound) keeps replaces member with
      ⟨rfl, -⟩ | ⟨-, was⟩
    · exact absurd keeps.key other
    · refine ⟨(leading.outdated x was other).not_target, fun h => ?_⟩
      rw [keeps.recency_left]
      exact (leading.outdated x was other).older h
  current := by
    rw [configOf_of_agrees (replaces.others _ (by decide)) rfl, isCurrent_of_keeps keeps config]
    exact leading.current
  built := by
    rw [(replaces.others .builds (by decide)).get]
    exact leading.built

/-- Another release is deleted. -/
theorem Leading.remove_other (leading : Leading s d r) (sound : s.Sound)
    (listing : Listing s d r) {ns name : String} (ne : objectKey ns name ≠ r.key) :
    Leading (s.delete .releases ns name).2 d r where
  listed := by
    obtain ⟨found, entry, app, target⟩ := (mem_ofTarget sound).1 leading.listed
    refine (mem_ofTarget (sound.delete _ ns name)).2 ⟨?_, ?_, app, target⟩
    · rw [getByKey_delete, if_neg ne.symm]
      exact found
    · exact listing.mem_keys_delete sound ne entry
  active := leading.active
  outdated := by
    intro x member other
    obtain ⟨stored, entry, app, target⟩ := (mem_ofTarget (sound.delete _ ns name)).1 member
    rw [getByKey_delete] at stored
    split at stored
    · cases stored
    · exact leading.outdated x
        ((mem_ofTarget sound).2 ⟨stored, mem_keys_of_delete entry, app, target⟩) other
  current := by
    rw [configOf_of_agrees (agrees_delete (by decide) s ns name) rfl]
    exact leading.current
  built := by
    rw [(agrees_delete (j := .builds) (by decide) s ns name).get]
    exact leading.built

/-! ## The autoscaler -/

/-- The autoscaler of a descriptor is found by the name of a release and steers its group. -/
structure Steers (d : Descriptor) (r : Release) (a : Autoscaler) : Prop where
  key : a.key = (Binding.autoscalerFor d r).key
  ns : a.info.ns = r.info.ns
  label : a.label? Label.release = some r.name
  release : a.spec.release = r.name

def Attached (s : Store) (d : Descriptor) (r : Release) : Prop :=
  ∃ a ∈ s.matching .autoscalers (Selector.ofRelease r.name), Steers d r a

/-- The entry by which the autoscaler of a release is found is unshared. -/
def Reserved (s : Store) (d : Descriptor) (r : Release) : Prop :=
  Unshared s .autoscalers Label.release r.name (Binding.autoscalerFor d r).key

/-- An autoscaler is attached under an entry of its own. -/
structure Bound (s : Store) (d : Descriptor) (r : Release) : Prop where
  attached : Attached s d r
  reserved : Reserved s d r

theorem Steers.congr {a : Autoscaler} (steers : Steers d r a) (spec : d'.spec = d.spec)
    (name : r'.info.name = r.info.name) (ns : r'.info.ns = r.info.ns) : Steers d' r' a where
  key := by
    show a.key = objectKey d'.spec.target (Binding.scalerName d'.spec.app)
    rw [spec]
    exact steers.key
  ns := steers.ns.trans ns.symm
  label := by
    show _ = some r'.info.name
    rw [name]
    exact steers.label
  release := steers.release.trans name.symm

theorem Attached.of_agrees (attached : Attached s d r) (agrees : Agrees .autoscalers s s') :
    Attached s' d r := by
  unfold Attached
  rw [agrees.matching]
  exact attached

theorem Attached.congr (attached : Attached s d r) (spec : d'.spec = d.spec)
    (name : r'.info.name = r.info.name) (ns : r'.info.ns = r.info.ns) : Attached s d' r' := by
  obtain ⟨a, found, steers⟩ := attached
  refine ⟨a, ?_, steers.congr spec name ns⟩
  show a ∈ s.matching .autoscalers (Selector.ofRelease r'.info.name)
  rw [name]
  exact found

theorem Bound.of_agrees (bound : Bound s d r) (agrees : Agrees .autoscalers s s') :
    Bound s' d r :=
  ⟨bound.attached.of_agrees agrees, Unshared.of_agrees bound.reserved agrees⟩

theorem Bound.congr (bound : Bound s d r) (spec : d'.spec = d.spec)
    (name : r'.info.name = r.info.name) (ns : r'.info.ns = r.info.ns) : Bound s d' r' where
  attached := bound.attached.congr spec name ns
  reserved := by
    show Unshared s .autoscalers Label.release r'.info.name
      (objectKey d'.spec.target (Binding.scalerName d'.spec.app))
    rw [spec, name]
    exact bound.reserved

/-- An autoscaler is replaced.  If it is the attached one, it stays attached; and its labels are not
filed under that entry. -/
theorem Bound.replace (bound : Bound s d r) (sound : s.Sound) {a a' : Autoscaler}
    (stored : s.getByKey .autoscalers a.key = some a) (key_eq : a'.key = a.key)
    (replaces : Replaces a a' s s') (keeps : Steers d r a → Steers d r a')
    (apart : ∀ label value, a'.label? label = some value →
      Index.entry .autoscalers label value a.key =
        Index.entry .autoscalers Label.release r.name (Binding.autoscalerFor d r).key →
      a.key = (Binding.autoscalerFor d r).key ∧ label = Label.release ∧ value = r.name) :
    Bound s' d r where
  reserved := Unshared.replace bound.reserved key_eq replaces apart
  attached := by
    obtain ⟨x, member, steers⟩ := bound.attached
    obtain ⟨found, entry, label⟩ := (mem_ofRelease sound).1 member
    have entry' : (a.key = x.key → a'.label? Label.release = some r.name) →
        Index.entry .autoscalers Label.release r.name x.key ∈ s'.index.keys := by
      intro keeps
      rw [replaces.index]
      rw [steers.key] at entry keeps ⊢
      exact bound.reserved.mem_keys_relabel stored keeps entry
    by_cases same : a.key = x.key
    · obtain rfl : a = x := by
        rw [same, found] at stored
        exact (Option.some.inj stored).symm
      have steers' := keeps steers
      refine ⟨a', (mem_ofRelease replaces.sound).2 ⟨?_, ?_, steers'.label⟩, steers'⟩
      · rw [key_eq]
        exact replaces.here
      · rw [key_eq]
        exact entry' fun _ => steers'.label
    · refine ⟨x, (mem_ofRelease replaces.sound).2 ⟨?_, ?_, label⟩, steers⟩
      · rw [replaces.there _ (Ne.symm same)]
        exact found
      · exact entry' fun eq => absurd eq same

/-- The autoscaler of another release is deleted. -/
theorem Bound.remove (bound : Bound s d r) (sound : s.Sound) {a : Autoscaler}
    (stored : ∀ x, s.getByKey .autoscalers a.key = some x →
      x.label? Label.release ≠ some r.name) :
    Bound (s.delete .autoscalers a.info.ns a.info.name).2 d r where
  reserved := Unshared.delete bound.reserved _ _
  attached := by
    obtain ⟨x, member, steers⟩ := bound.attached
    obtain ⟨found, entry, label⟩ := (mem_ofRelease sound).1 member
    have ne : x.key ≠ a.key := by
      intro same
      rw [same] at found
      exact stored x found label
    refine ⟨x, (mem_ofRelease (sound.delete ..)).2 ⟨?_, ?_, label⟩, steers⟩
    · rw [getByKey_delete]
      exact (if_neg ne).trans found
    · rw [steers.key] at entry ne ⊢
      exact bound.reserved.mem_keys_delete sound ne.symm entry

/-- Of the labels that the autoscaler of a descriptor gets, that of its release alone is filed as
such. -/
theorem eq_of_entry_eq {app target name key label value : String}
    (has : ((Label.ofTarget app target).insert Label.release name).get? label = some value)
    (same : Index.entry .autoscalers label value key =
      Index.entry .autoscalers Label.release name key) :
    label = Label.release ∧ value = name := by
  have plain : '=' ∉ label.toList := by
    rw [Dict.get?_insert] at has
    split at has
    · rename_i own
      subst own
      decide
    · by_contra sign
      have ne {known : String} (plain : '=' ∉ known.toList) : label ≠ known := by
        rintro rfl
        exact plain sign
      rw [Label.get?_ofTarget _ _ _ (ne (by decide)) (ne (by decide)) (ne (by decide))] at has
      cases has
  have lists := congrArg String.toList same
  rw [Index.toList_entry, Index.toList_entry] at lists
  have parts := List.append_cancel_right (List.cons.inj (List.append_cancel_left lists)).2
  obtain ⟨label_eq, value_eq⟩ := Index.append_cons_cancel plain (by decide) parts
  exact ⟨String.toList_inj.1 label_eq, String.toList_inj.1 value_eq⟩

/-! ## The whole -/

/-- A descriptor whose autoscaler is attached to its newest release, which has instances. -/
structure Scaled (s : Store) (d : Descriptor) (r : Release) : Prop where
  sound : s.Sound
  described : s.getByKey .descriptors d.key = some d
  latest : d.spec.deployMode = .latest
  least : 0 < d.spec.scale.min
  scaled : d.needsAutoscaler = true
  leading : Leading s d r
  wanted : 0 < r.spec.numDesired
  attached : Attached s d r
  live : groupSize s r.key ≠ 0

/-- The index tells the release and its autoscaler from all others. -/
structure Steered (s : Store) (d : Descriptor) (r : Release) : Prop extends Scaled s d r where
  listing : Listing s d r
  reserved : Reserved s d r

theorem Steered.bound (steered : Steered s d r) : Bound s d r :=
  ⟨steered.attached, steered.reserved⟩

/-- A release is not marked as the target of a promotion. -/
def Unmarked (r : Release) : Prop := r.label? Label.promotionTarget = none

end Cutover.Steering
