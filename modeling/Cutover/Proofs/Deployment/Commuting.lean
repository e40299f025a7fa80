/-
# Cutover.Proofs.Deployment.Commuting -- passes over different descriptors commute

Descriptors are passed over concurrently and in no order.  A pass reads the builds, the published
configs, and what its queries find; it writes its descriptor and what it derives.  Step by
step, it keeps to the domain of its descriptor (`inStep_run`).

Which stores there are that passes keep lawful is said by `Reached`: nobody but passes writes derived
objects, except for what is observed of them.  In such a store the passes over two descriptors
of different applications or targets commute, and neither touches what was derived for the
other (`passes_commute`).
-/
import Cutover.Proofs.Deployment.Domain
import Cutover.Proofs.Deployment.Turn

namespace Cutover.Deployment

set_option autoImplicit false

open Pass Store

variable {d d' : Descriptor} {s u : Store} {now : Nat}

/-! ## The steps of a pass -/

theorem exists_data_of_resolve {c : Configuration} (resolved : Configuration.resolve s d = some c) :
    ∃ data, c = .ofData data := by
  unfold Configuration.resolve at resolved
  simp only at resolved
  split at resolved
  · cases resolved
  · exact ⟨_, (Option.some.inj resolved).symm⟩

theorem resolve_of_agrees (agrees : Agrees .appConfigs s u) :
    Configuration.resolve u d = Configuration.resolve s d := by
  unfold Configuration.resolve Configuration.appEntries Configuration.sharedEntries
    Configuration.merged
  simp only [agrees.matching]

theorem derived_mapFor (named : Named d.spec) (data : Dict String) :
    Derived .configMaps d.spec.app d.spec.target (Configuration.mapFor d (.ofData data)).key
      (Configuration.mapFor d (.ofData data)).info.labels where
  place := Place.configMap _ _ data
  accepts := accepts_insert _ _ (by decide) (by decide) (accepts_ofTarget_self _ _)
  free := (FreeLabels.ofTarget named.app named.target).insert (by decide) (Digest.isName_hexOf _).2

theorem derived_autoscalerFor (named : Named d.spec) {r : Release} (belongs : Belongs d r) :
    Derived .autoscalers d.spec.app d.spec.target (Binding.autoscalerFor d r).key
      (Binding.autoscalerFor d r).info.labels where
  place := Place.autoscaler _ _
  accepts := accepts_insert _ _ (by decide) (by decide) (accepts_ofTarget_self _ _)
  free := (FreeLabels.ofTarget named.app named.target).insert (by decide)
    (separator_not_mem_of_objectKey (Place.separator_not_mem named.app named.target belongs.place))

theorem derived_splitFor (named : Named d.spec) (rs : List Release) :
    Derived .trafficSplits d.spec.app d.spec.target (Routing.splitFor d rs).key
      (Routing.splitFor d rs).info.labels where
  place := Place.trafficSplit _ _
  accepts := accepts_ofTarget_self _ _
  free := FreeLabels.ofTarget named.app named.target

theorem ensureMap_of_free {c : Configuration}
    (free : s.get .configMaps d.targetNamespace (c.mapName d.spec.app) = none) :
    Configuration.ensureMap d c s = ((fun _ => c.mapName d.spec.app) <$>
      Pass.write (·.create (Configuration.mapFor d c)) : Pass StoreError String) s := by
  have created := create_eq (show s.getByKey .configMaps (Configuration.mapFor d c).key = none from
    free)
  show _ = EStateM.map _ (Pass.write (·.create (Configuration.mapFor d c))) s
  unfold Configuration.ensureMap EStateM.map Pass.write
  simp only [free, created]

theorem inStep_ensureMap (named : Named d.spec) (twins : (domain d).Twins derivedLaw s u)
    (data : Dict String) : InStep (domain d) derivedLaw s u (fun _ => True)
      (Configuration.ensureMap d (.ofData data) s) (Configuration.ensureMap d (.ofData data) u) := by
  have fits := fits_domain named (derived_mapFor named data)
  have same : u.get .configMaps d.targetNamespace ((Configuration.ofData data).mapName d.spec.app) =
      s.get .configMaps d.targetNamespace ((Configuration.ofData data).mapName d.spec.app) :=
    twins.alike.found _ _ fits.cell
  cases found : s.get .configMaps d.targetNamespace
      ((Configuration.ofData data).mapName d.spec.app) with
  | some stored =>
      unfold Configuration.ensureMap
      simp only [same, found]
      refine .ok ?_ (.refl twins)
      trivial
  | none =>
      rw [ensureMap_of_free found, ensureMap_of_free (same.trans found)]
      exact (InStep.create twins fits).map fun _ _ => trivial

theorem inStep_configure (named : Named d.spec) (twins : (domain d).Twins derivedLaw s u) :
    InStep (domain d) derivedLaw s u Hashed (configure d s) (configure d u) := by
  have resolved := resolve_of_agrees (twins.alike.whole .appConfigs (.inr rfl)) (d := d)
  refine InStep.read (by rw [resolved]) ?_
  cases found : Configuration.resolve s d with
  | none => exact .pure twins fun c none_ => by cases none_
  | some c =>
      obtain ⟨data, rfl⟩ := exists_data_of_resolve found
      refine (inStep_ensureMap named twins data).within.bind fun name s' u' _ done => ?_
      refine .pure done.twins fun c same => ⟨data, ?_⟩
      rw [← Option.some.inj same]

theorem inStep_persist (named : Named d.spec) (twins : (domain d).Twins derivedLaw s u)
    {r : Release} (belongs : Belongs d r) (before : Release) :
    InStep (domain d) derivedLaw s u (Belongs d) (persist r before s) (persist r before u) := by
  have fits := fits_domain named belongs
  have returned (made : Release) (returns : InStep.Returns r made) : Belongs d made := by
    rw [Belongs, returns.1, returns.2]
    exact belongs
  unfold persist
  split
  · exact (InStep.create twins fits).mono returned
  · split
    · exact (InStep.updateSpec twins fits).mono returned
    · exact .pure twins belongs

theorem inStep_persistAll (named : Named d.spec) (twins : (domain d).Twins derivedLaw s u)
    {pairs : List (Release × Release)} (belong : ∀ p ∈ pairs, Belongs d p.1) :
    InStep (domain d) derivedLaw s u (fun rs => ∀ r ∈ rs, Belongs d r) (persistAll pairs s)
      (persistAll pairs u) :=
  InStep.mapM (fun p inside _ _ twins => inStep_persist named twins (belong p inside) p.2) twins

theorem inStep_collectGarbage (twins : (domain d).Twins derivedLaw s u) {rs : List Release}
    (belong : ∀ r ∈ rs, Belongs d r) : InStep (domain d) derivedLaw s u (fun _ => True)
      (Release.collectGarbage rs now s) (Release.collectGarbage rs now u) := by
  have removed : ∀ r ∈ Release.expired rs now, ∀ s u, (domain d).Twins derivedLaw s u →
      InStep (domain d) derivedLaw s u (fun _ => True) (Release.remove r s) (Release.remove r u) := by
    intro r inside s u twins
    have belongs := belong r (List.mem_of_mem_drop (List.mem_of_mem_filter inside))
    exact InStep.delete twins (.inr belongs.place) (files_domain belongs.place) id fun _ => trivial
  unfold Release.collectGarbage
  exact (InStep.mapM removed twins).bind fun _ _ _ _ done => .pure done.twins trivial

theorem inStep_reconcile (named : Named d.spec) (twins : (domain d).Twins derivedLaw s u)
    {rs : List Release} (belong : ∀ r ∈ rs, Belongs d r) :
    InStep (domain d) derivedLaw s u (fun d' => ∃ status, d' = { d with status })
      (Binding.reconcile d rs s) (Binding.reconcile d rs u) := by
  have removed : ∀ a ∈ s.matching .autoscalers (Selector.ofTarget d.spec.app d.spec.target),
      ∀ s u, (domain d).Twins derivedLaw s u → InStep (domain d) derivedLaw s u (fun _ => True)
        (Binding.remove a s) (Binding.remove a u) := by
    intro a inside s' u' twins'
    have derived := derived_of_mem_matching twins.left (by decide) inside
    exact InStep.delete twins' (.inr derived.place) (files_domain derived.place) (fun _ => ())
      fun _ => trivial
  unfold Binding.reconcile
  refine InStep.read (by rw [matching_domain named twins (by decide)]) ?_
  simp only
  cases bound : Binding.boundRelease? d rs with
  | none =>
      refine (InStep.forM removed twins).bind fun _ _ _ _ done => ?_
      exact .pure done.twins ⟨d.status, rfl⟩
  | some r =>
      have belongs : Belongs d r := by
        unfold Binding.boundRelease? at bound
        split at bound
        · exact belong r (List.mem_of_find?_eq_some bound)
        · cases bound
      refine (InStep.forM (fun a inside => removed a (List.mem_of_mem_filter inside)) twins).bind
        fun _ _ _ _ done => ?_
      refine (InStep.apply done.twins (fits_domain named (derived_autoscalerFor named belongs))).bind
        fun _ _ _ _ done' => ?_
      exact .pure done'.twins ⟨_, rfl⟩

theorem inStep_publish (named : Named d.spec) (twins : (domain d).Twins derivedLaw s u)
    (rs : List Release) : InStep (domain d) derivedLaw s u (fun _ => True)
      (Routing.publish d rs s) (Routing.publish d rs u) :=
  (InStep.apply twins (fits_domain named (derived_splitFor named rs))).bind
    fun _ _ _ _ done => .pure done.twins trivial

theorem inStep_modifyStatus (twins : (domain d).Twins derivedLaw s u)
    (f : Descriptor → DescriptorStatus) : InStep (domain d) derivedLaw s u (fun _ => True)
      (discard (modifyStatus .descriptors d.info.ns d.info.name f) s)
      (discard (modifyStatus .descriptors d.info.ns d.info.name f) u) :=
  (InStep.modifyStatus twins (.inl ⟨rfl, rfl⟩) f).discard

theorem inStep_stamp (twins : (domain d).Twins derivedLaw s u) (status observed : DescriptorStatus) :
    InStep (domain d) derivedLaw s u (fun _ => True) (stamp { d with status } observed s)
      (stamp { d with status } observed u) := by
  unfold stamp
  split
  · exact inStep_modifyStatus twins _
  · exact .pure twins trivial

theorem inStep_report (twins : (domain d).Twins derivedLaw s u)
    (status observed : DescriptorStatus) : InStep (domain d) derivedLaw s u (fun _ => True)
      (report { d with status } observed s) (report { d with status } observed u) := by
  unfold report
  split
  · exact inStep_modifyStatus twins _
  · exact .pure twins trivial

/-! ## The whole pass -/

theorem inStep_carryOut (named : Named d.spec) (twins : (domain d).Twins derivedLaw s u)
    {result : Ramp.Result} {status : DescriptorStatus}
    (descriptor : result.descriptor = { d with status })
    (belong : ∀ r ∈ result.releases, Belongs d r) (observed : DescriptorStatus)
    (before : List Release) : InStep (domain d) derivedLaw s u (fun _ => True)
      (carryOut result observed before now s) (carryOut result observed before now u) := by
  have paired : ∀ p ∈ result.releases.zip before, Belongs d p.1 := fun p inside =>
    belong _ (List.of_mem_zip inside).1
  unfold carryOut
  rw [descriptor]
  refine (inStep_stamp twins status observed).within.bind fun _ s₁ u₁ _ done₁ => ?_
  refine (inStep_persistAll named done₁.twins paired).within.bind fun rs s₂ u₂ belong₂ done₂ => ?_
  refine (inStep_collectGarbage done₂.twins belong₂).within.discard.bind fun _ s₃ u₃ _ done₃ => ?_
  have reconciled := inStep_reconcile (d := { d with status }) ⟨named.app, named.target⟩
    done₃.twins belong₂
  refine InStep.bind reconciled.within fun d' s₄ u₄ same done₄ => ?_
  obtain ⟨status', rfl⟩ := same
  have published := inStep_publish (d := { d with status := status' })
    ⟨named.app, named.target⟩ done₄.twins rs
  refine InStep.bind published.within.discard fun _ s₅ u₅ _ done₅ => ?_
  exact (inStep_report done₅.twins status' observed).within

theorem belongs_of_mem_candidates (named : Named d.spec) (lawful : s.Lawful derivedLaw) {build : Build}
    (datable : Datable build.key build.spec) {config : Option (Configuration × String)} (hashed : Hashed config) :
    ∀ r ∈ candidates s d build config, Belongs d r := by
  have stored : ∀ r ∈ s.matching .releases (Selector.ofTarget d.spec.app d.spec.target),
      Belongs d r := fun r inside => derived_of_mem_matching lawful (by decide) inside
  intro r inside
  unfold candidates at inside
  rw [Release.sortNewestFirst, List.mem_mergeSort] at inside
  split at inside
  · exact stored r inside
  · rcases List.mem_append.1 inside with old | new
    · exact stored r old
    · rw [List.mem_singleton.1 new]
      exact belongs_cut named datable hashed

theorem candidates_eq (named : Named d.spec) (twins : (domain d).Twins derivedLaw s u) (build : Build)
    (config : Option (Configuration × String)) :
    candidates u d build config = candidates s d build config := by
  unfold candidates
  rw [matching_domain named twins (by decide)]

/-- The ramp changes the status of a descriptor only. -/
theorem descriptor_of_pass {rs : List Release} {result : Ramp.Result}
    (passed : Ramp.pass d rs now = .ok result) :
    ∃ status, result.descriptor = { d with status } :=
  (ramped_of_pass passed).descriptor

theorem inStep_deploy (named : Named d.spec) (twins : (domain d).Twins derivedLaw s u) :
    InStep (domain d) derivedLaw s u (fun _ => True) (deploy d now s) (deploy d now u) := by
  unfold deploy
  refine (inStep_configure named twins).bind fun config s₁ u₁ hashed done => ?_
  have builds := (done.twins.alike.whole .builds (.inl rfl)).get "" d.spec.build
  refine InStep.read (by rw [builds]) ?_
  cases built : s₁.get .builds "" d.spec.build with
  | none => exact .throw done.twins _
  | some build =>
      have datable : Datable build.key build.spec := by
        rw [done.twins.left.sound.keyed _ _ build built]
        exact (done.twins.left.objects .builds _ build built).admissible
      refine InStep.read (by rw [candidates_eq named done.twins]) ?_
      cases passed : Ramp.pass d (candidates s₁ d build config) now with
      | error e => exact .throw done.twins e
      | ok result =>
          have belong := belongs_of_pass passed
            (belongs_of_mem_candidates named done.twins.left datable hashed)
          obtain ⟨status, descriptor⟩ := descriptor_of_pass passed
          refine (inStep_carryOut named done.twins descriptor belong _ _).bind
            fun _ _ _ _ carried => ?_
          exact .pure carried.twins trivial

/-- **A pass keeps to the domain of its descriptor.** -/
theorem inStep_run {key : String} (described : s.getByKey .descriptors key = some d)
    (twins : (domain d).Twins derivedLaw s u) :
    InStep (domain d) derivedLaw s u (fun _ => True) (run key now s) (run key now u) := by
  obtain rfl := twins.left.sound.keyed _ _ d described
  have same := twins.alike.found .descriptors d.key (.inl ⟨rfl, rfl⟩)
  unfold run
  refine InStep.read (by rw [same]) ?_
  simp only [described]
  exact inStep_deploy (twins.left.objects .descriptors _ d described).admissible twins

/-- What a pass changes is in the domain of its descriptor. -/
theorem together_run (lawful : s.Lawful derivedLaw) {key : String}
    (described : s.getByKey .descriptors key = some d) (now : Nat) :
    (domain d).Together derivedLaw s s ((run key now).left s) ((run key now).left s) :=
  (inStep_run described ⟨lawful, lawful, .refl _ s⟩).left

/-! ## Stores that passes and others lead to -/

theorem lawful_run (lawful : s.Lawful derivedLaw) (key : String) (now : Nat) :
    ((run key now).left s).Lawful derivedLaw := by
  cases described : s.getByKey .descriptors key with
  | some d => exact (together_run lawful described now).twins.left
  | none =>
      have removed (k : Kind) (t : Store) (lawful : t.Lawful derivedLaw) :
          (removeOwnedOf k key).Upholds derivedLaw t := by
        refine leads_read (Upholds.bind (upholds_mapM (fun o _ t lawful => ?_) lawful) ?_)
        · exact upholds_delete lawful k o.info.ns o.info.name id
        · exact fun _ _ kept => upholds_pure kept _
      have gone : (removeOwned key).Upholds derivedLaw s := by
        refine (removed .releases s lawful).bind fun _ s₁ lawful₁ => ?_
        refine (removed .autoscalers s₁ lawful₁).bind fun _ s₂ lawful₂ => ?_
        refine (removed .trafficSplits s₂ lawful₂).bind fun _ s₃ lawful₃ => ?_
        exact (removed .configMaps s₃ lawful₃).bind fun _ s₄ lawful₄ => upholds_pure lawful₄ _
      refine Upholds.left (leads_read ?_)
      simp only [described]
      exact ((gone.within _).map _).bind fun _ _ kept => upholds_pure kept _

theorem upholds_settleGroup (lawful : s.Lawful derivedLaw) (r : Release) (ns name : String) :
    (ReleasePass.settleGroup r ns name).Upholds derivedLaw s := by
  unfold ReleasePass.settleGroup
  split
  · exact ((upholds_delete lawful .replicaGroups ns name fun _ => ()).within _).bind
      fun _ _ kept => upholds_pure kept _
  · refine leads_read ?_
    simp only
    split
    · exact upholds_pure lawful _
    · split
      · exact leads_throw lawful
      · -- a replica group is none of the objects of which anything is asked
        rename_i desired _
        have kept : derivedLaw .replicaGroups desired.key desired.info.labels desired.spec :=
          ⟨trivial, fun derived => by cases derived⟩
        exact ((upholds_apply lawful kept).within _).bind fun _ _ kept => upholds_pure kept _

theorem lawful_releasePass (lawful : s.Lawful derivedLaw) (key : String) (now : Nat) :
    ((ReleasePass.run key now).left s).Lawful derivedLaw := by
  refine Upholds.left ?_
  unfold ReleasePass.run
  obtain ⟨ns, name⟩ := splitKey key
  refine leads_read ?_
  simp only
  split
  · exact ((upholds_delete lawful .replicaGroups _ _ fun _ => ()).within _).bind
      fun _ _ kept => upholds_pure kept _
  · refine (upholds_settleGroup lawful _ _ _).bind fun group s' lawful' => leads_read ?_
    split
    · exact ((upholds_modifyStatus lawful' _ _ _).within _).map _ |>.bind
        fun _ _ kept => upholds_pure kept _
    · exact upholds_pure lawful' _

/-- The kinds of which others than passes write the specs. -/
def OutsideKind (k : Kind) : Prop := k = .descriptors ∨ k = .builds ∨ k = .appConfigs

/-- What is asked by others than passes: writes of descriptors, builds and published configs, as they
should be, and of the status of anything. -/
def Outside : Request → Prop
  | .create (k := k) o => OutsideKind k ∧ Admissible k o.key o.spec
  | .updateSpec (k := k) o => OutsideKind k ∧ Admissible k o.key o.spec
  | .apply (k := k) o => OutsideKind k ∧ Admissible k o.key o.spec
  | .modifySpec k _ _ f => OutsideKind k ∧ ∀ o : Object k, Admissible k o.key o.spec →
      Admissible k (f o).key (f o).spec
  | .delete k _ _ => OutsideKind k
  | .updateStatus _ | .modifyStatus _ _ _ _ | .wait _ => True

theorem kept_of_outside {k : Kind} (outside : OutsideKind k) {key : String} {spec : k.Spec}
    (admissible : Admissible k key spec) (labels : Dict String) :
    derivedLaw k key labels spec := by
  refine ⟨admissible, fun derived => ?_⟩
  rcases outside with rfl | rfl | rfl <;> cases derived

theorem keeps_of_outside {r : Request} (outside : Outside r) :
    r.Keeps derivedLaw := by
  cases r with
  | create o => exact kept_of_outside outside.1 outside.2 _
  | updateSpec o => exact kept_of_outside outside.1 outside.2 _
  | apply o => exact kept_of_outside outside.1 outside.2 _
  | modifySpec k ns name f =>
      intro o kept
      exact kept_of_outside outside.1 (outside.2 o kept.admissible) _
  | _ => trivial

/-- The stores that passes over descriptors and releases and others lead to. -/
inductive Reached : Store → Prop
  | empty (clock : Nat) : Reached (.empty clock)
  | deployed {s : Store} (reached : Reached s) (key : String) (now : Nat) :
      Reached ((run key now).left s)
  | released {s : Store} (reached : Reached s) (key : String) (now : Nat) :
      Reached ((ReleasePass.run key now).left s)
  | served {s : Store} (reached : Reached s) {r : Request} (outside : Outside r) :
      Reached (s.serve r)

theorem Reached.lawful (reached : Reached s) : s.Lawful derivedLaw := by
  induction reached with
  | empty clock => exact lawful_empty derivedLaw clock
  | deployed _ key now lawful => exact lawful_run lawful key now
  | released _ key now lawful => exact lawful_releasePass lawful key now
  | served _ outside lawful => exact lawful.serve (keeps_of_outside outside)

/-! ## Two descriptors -/

/-- Whatever belongs to a descriptor is as it was, its status included, and so is what is observed of
any release.  The derived objects that belong to it are those that carry the labels of its
application and target (`Selector.ofTarget`), by which passes look for them; whom an object names
as its owner is another matter, since the objects of a descriptor that is pointed at another
application keep it as their owner. -/
structure Spares (d : Descriptor) (s s' : Store) : Prop where
  descriptor : s'.getByKey .descriptors d.key = s.getByKey .descriptors d.key
  derived : ∀ k ∈ [Kind.releases, .autoscalers, .trafficSplits, .configMaps],
    s'.matching k (Selector.ofTarget d.spec.app d.spec.target) =
      s.matching k (Selector.ofTarget d.spec.app d.spec.target) ∧
    ∀ (key : String) (o : Object k),
      (Selector.ofTarget d.spec.app d.spec.target).accepts o.info.labels = true →
      (s'.getByKey k key = some o ↔ s.getByKey k key = some o)
  others : ∀ k ∈ [Kind.builds, .replicaGroups, .instances, .appConfigs], ∀ key,
    s'.getByKey k key = s.getByKey k key

/-- What changes in the domain of one descriptor spares any other. -/
theorem spares_of_confined (lawful : s.Lawful derivedLaw) (lawful' : u.Lawful derivedLaw)
    (named : Named d'.spec) (confined : (domain d).Confined s u)
    (disjoint : (domain d').Disjoint (domain d)) : Spares d' s u where
  descriptor := confined.found _ _ (disjoint.cells _ _ (.inl ⟨rfl, rfl⟩))
  derived := by
    intro k inside
    have kinds : ∀ k ∈ [Kind.releases, .autoscalers, .trafficSplits, .configMaps],
        k.width?.isSome = true := by decide
    have kind := kinds k inside
    refine ⟨matching_domain named ⟨lawful, lawful', confined.alike disjoint⟩ kind, ?_⟩
    intro key o accepts
    have place {t : Store} (lawful : t.Lawful derivedLaw) (found : t.getByKey k key = some o) :
        u.getByKey k key = s.getByKey k key := by
      have derived := Derived.of_law (lawful.objects k key o found) kind accepts
      exact confined.found k key (disjoint.cells k key (.inr derived.place))
    constructor
    · intro found
      exact (place lawful' found).symm.trans found
    · intro found
      exact (place lawful found).trans found
  others := by
    intro k inside key
    refine confined.found k key ?_
    have kinds : ∀ k ∈ [Kind.builds, .replicaGroups, .instances, .appConfigs],
        k ≠ .descriptors ∧ k.width?.isSome = false := by decide
    obtain ⟨described, none_⟩ := kinds k inside
    rintro (⟨kind, -⟩ | place)
    · exact described kind
    · exact Bool.false_ne_true (none_.symm.trans (isSome_of_place place))

/-- **Passes over different descriptors commute.**  In any store that passes and others lead to, the
passes over two descriptors of different applications or targets come to the same answers, objects
and index in either order, and neither touches what belongs to the other.  What belongs to a
descriptor is told by the labels of its application and target, and not by the owner, which may be
a descriptor that has since been pointed at another application (`Spares`). -/
theorem passes_commute (reached : Reached s) {key₁ key₂ : String} {d₁ d₂ : Descriptor}
    (found₁ : s.getByKey .descriptors key₁ = some d₁)
    (found₂ : s.getByKey .descriptors key₂ = some d₂)
    (different : ¬ (d₁.spec.app = d₂.spec.app ∧ d₁.spec.target = d₂.spec.target))
    (now₁ now₂ : Nat) :
    Commute (run key₁ now₁) (run key₂ now₂) s ∧
      Spares d₂ s ((run key₁ now₁).left s) ∧ Spares d₁ s ((run key₂ now₂).left s) := by
  have lawful := reached.lawful
  have named₁ : Named d₁.spec := (lawful.objects .descriptors _ d₁ found₁).admissible
  have named₂ : Named d₂.spec := (lawful.objects .descriptors _ d₂ found₂).admissible
  have keys : d₁.key ≠ d₂.key := by
    intro same
    have key₁_eq : d₁.key = key₁ := lawful.sound.keyed _ _ d₁ found₁
    have key₂_eq : d₂.key = key₂ := lawful.sound.keyed _ _ d₂ found₂
    rw [← key₁_eq, same, key₂_eq, found₂] at found₁
    cases found₁
    exact different ⟨rfl, rfl⟩
  have disjoint := disjoint_domain named₁ named₂ keys different
  have alone₁ := together_run lawful found₁ now₁
  have alone₂ := together_run lawful found₂ now₂
  refine ⟨?_, ?_, ?_⟩
  · exact commute_of_disjoint disjoint lawful (fun u twins => inStep_run found₁ twins)
      fun u twins => inStep_run found₂ twins
  · exact spares_of_confined lawful alone₁.twins.left named₂ alone₁.left disjoint.symm
  · exact spares_of_confined lawful alone₂.twins.left named₁ alone₂.left disjoint

namespace Sample

def dated : Build :=
  { info := Meta.fresh "" "v1", spec := ⟨"registry.example.com", "shop", "v1", 1700000000⟩,
    status := () }

/-- A descriptor of an application; the names of two begin alike. -/
def shopFor (app : String) : Descriptor :=
  { info := Meta.fresh "" (app ++ "-prod")
    spec := { (default : DescriptorSpec) with app, target := "prod", build := "v1" }
    status := default }

def shops : Store :=
  (((Store.empty 7).serve (.create dated)).serve (.create (shopFor "web"))).serve
    (.create (shopFor "web-2"))

theorem reached_shops : Reached shops := by
  have build : Outside (.create dated) := ⟨.inr (.inl rfl), by decide, by decide⟩
  have first : Outside (.create (shopFor "web")) := ⟨.inl rfl, by decide, by decide⟩
  have second : Outside (.create (shopFor "web-2")) := ⟨.inl rfl, by decide, by decide⟩
  exact (((Reached.empty 7).served build).served first).served second

theorem shops_commute : ∃ d₁ d₂, Reached shops ∧
    shops.getByKey .descriptors "web-prod" = some d₁ ∧
    shops.getByKey .descriptors "web-2-prod" = some d₂ ∧
    ¬ (d₁.spec.app = d₂.spec.app ∧ d₁.spec.target = d₂.spec.target) ∧
    Commute (run "web-prod" 100) (run "web-2-prod" 200) shops ∧
    Spares d₂ shops ((run "web-prod" 100).left shops) ∧
    Spares d₁ shops ((run "web-2-prod" 200).left shops) := by
  have first : shops.getByKey .descriptors "web-prod" =
      some ((Store.empty 7).accepted (shopFor "web")) := by rfl
  have second : shops.getByKey .descriptors "web-2-prod" =
      some ((Store.empty 7).accepted (shopFor "web-2")) := by rfl
  have different : ¬ ((shopFor "web").spec.app = (shopFor "web-2").spec.app ∧
      (shopFor "web").spec.target = (shopFor "web-2").spec.target) := by decide
  exact ⟨_, _, reached_shops, first, second, different,
    passes_commute reached_shops first second different 100 200⟩

end Sample

end Cutover.Deployment
