/-
# Cutover.Proofs.Deployment.Steps -- what a pass writes besides its releases

One lemma for each step of a pass over a descriptor: storing the configuration
(`ends_configure`), the time of the movement (`ends_stamp`) and the status (`ends_report`),
dropping old releases (`ends_collectGarbage`), binding an autoscaler (`ends_reconcile`) and
publishing the split (`ends_publish`).  Each says what is written and which kinds of objects
are left alone, and none of them fails.
-/
import Cutover.Proofs.Feedback.Settled
import Cutover.Proofs.Store.Scan

namespace Cutover.Deployment

set_option autoImplicit false

open Pass Store

variable {s s' : Store} {d : Descriptor}

/-- The store once the descriptor's configuration has its config map. -/
def withConfigMap (s : Store) (d : Descriptor) : Store :=
  match Configuration.resolve s d with
  | none => s
  | some c =>
      match s.get .configMaps d.targetNamespace (c.mapName d.spec.app) with
      | some _ => s
      | none => s.commit (s.accepted (Configuration.mapFor d c)) ∅ .created

/-- The map is there, or there is no configuration; or the map is put under its free name. -/
theorem withConfigMap_cases (s : Store) (d : Descriptor) :
    ((∀ c ∈ Feedback.configOf s d, (s.get .configMaps d.targetNamespace c.2).isSome = true) ∧
      withConfigMap s d = s) ∨
    ∃ c, Configuration.resolve s d = some c ∧
      s.get .configMaps d.targetNamespace (c.mapName d.spec.app) = none ∧
      withConfigMap s d = s.commit (s.accepted (Configuration.mapFor d c)) ∅ .created := by
  unfold withConfigMap Feedback.configOf
  cases resolved : Configuration.resolve s d with
  | none => exact .inl ⟨nofun, rfl⟩
  | some c =>
      cases found : s.get .configMaps d.targetNamespace (c.mapName d.spec.app) with
      | none => exact .inr ⟨c, rfl, found, by simp only [found]⟩
      | some stored =>
          refine .inl ⟨?_, by simp only [found]⟩
          rintro _ ⟨⟩
          simp only [found, Option.isSome_some]

/-- The configuration is stored, whatever the store has. -/
theorem ends_configure_any (s : Store) (d : Descriptor) :
    Ends (configure d) s fun config s' => config = Feedback.configOf s d ∧ s' = withConfigMap s d := by
  unfold configure
  refine ends_read ?_
  unfold Feedback.configOf withConfigMap
  cases Configuration.resolve s d with
  | none => exact ends_pure ⟨rfl, rfl⟩
  | some c =>
      have ensured : Ends (Configuration.ensureMap d c) s fun name s' =>
          name = c.mapName d.spec.app ∧ s' =
            match s.get .configMaps d.targetNamespace (c.mapName d.spec.app) with
            | some _ => s
            | none => s.commit (s.accepted (Configuration.mapFor d c)) ∅ .created := by
        cases found : s.get .configMaps d.targetNamespace (c.mapName d.spec.app) with
        | some stored =>
            refine ⟨_, s, ?_, rfl, rfl⟩
            unfold Configuration.ensureMap
            simp only [found]
        | none =>
            have free : s.getByKey .configMaps (Configuration.mapFor d c).key = none := found
            refine ⟨_, _, ?_, rfl, rfl⟩
            unfold Configuration.ensureMap
            simp only [found, create_eq free]
      refine ensured.within.bind ?_
      rintro name s' ⟨rfl, rfl⟩
      exact ends_pure ⟨rfl, rfl⟩

theorem agrees_withConfigMap {j : Kind} (ne : j ≠ .configMaps) (s : Store) (d : Descriptor) :
    Agrees j s (withConfigMap s d) := by
  rcases withConfigMap_cases s d with ⟨-, same⟩ | ⟨c, -, -, stored⟩
  · rw [same]
    exact Agrees.refl j s
  · rw [stored]
    exact agrees_commit ne s _ _ _

/-- The configuration is stored, and nothing else is touched. -/
theorem ends_configure (sound : s.Sound) (d : Descriptor) :
    Ends (configure d) s fun config s' => config = Feedback.configOf s d ∧
      (∀ j, j ≠ .configMaps → Agrees j s s') ∧ s'.Sound ∧ (s.Indexed → s'.Indexed) := by
  refine (ends_configure_any s d).mono ?_
  rintro config s' ⟨rfl, rfl⟩
  refine ⟨rfl, fun j ne => agrees_withConfigMap ne s d, ?_⟩
  rcases withConfigMap_cases s d with ⟨-, same⟩ | ⟨c, -, -, stored⟩
  · rw [same]
    exact ⟨sound, fun indexed => indexed⟩
  · rw [stored]
    exact ⟨sound.commit rfl _ _, fun indexed => indexed.commit_new _ _⟩

/-- The stored descriptor is the one that was read, but for its status. -/
def Standing (d : Descriptor) (status : DescriptorStatus) (s : Store) : Prop :=
  ∃ version, s.getByKey .descriptors d.key =
    some { d with status, info.statusVersion := version }

theorem Standing.of_agrees {status : DescriptorStatus} (standing : Standing d status s)
    (agrees : Agrees .descriptors s s') : Standing d status s' := by
  obtain ⟨version, found⟩ := standing
  exact ⟨version, by rw [agrees.getByKey]; exact found⟩

theorem ends_modify_descriptor {status status' : DescriptorStatus} (sound : s.Sound)
    (standing : Standing d status s) {f : Descriptor → DescriptorStatus}
    (edits : ∀ o : Descriptor, o.status = status → f o = status') :
    Ends (modifyStatus .descriptors d.info.ns d.info.name f) s fun _ s' =>
      Standing d status' s' ∧ (∀ j, j ≠ .descriptors → Agrees j s s') ∧ s'.Sound ∧
        (s.Indexed → s'.Indexed) := by
  obtain ⟨version, found⟩ := standing
  refine (ends_modifyStatus sound found f).mono ?_
  rintro - s' ⟨version', replaces⟩
  refine ⟨⟨version', ?_⟩, replaces.others, replaces.sound, replaces.indexed found rfl⟩
  rw [← edits { d with status, info.statusVersion := version } rfl]
  exact replaces.here

/-- The time of the last movement is stored. -/
theorem ends_stamp (sound : s.Sound) (standing : Standing d d.status s)
    (status : DescriptorStatus) :
    Ends (stamp { d with status } d.status) s fun _ s' =>
      Standing d { d.status with deployUpdatedAt := status.deployUpdatedAt } s' ∧
        (∀ j, j ≠ .descriptors → Agrees j s s') ∧ s'.Sound ∧ (s.Indexed → s'.Indexed) := by
  unfold stamp
  simp only
  split
  · refine (ends_modify_descriptor sound standing fun o same => ?_).discard.mono
      fun _ _ ⟨_, ends⟩ => ends
    rw [same]
  · rename_i same
    rw [not_not.1 same]
    exact ends_pure ⟨standing, fun j _ => Agrees.refl j s, sound, fun indexed => indexed⟩

/-- The status is stored, if it is not the one that was read. -/
theorem ends_report {observed : DescriptorStatus} (status : DescriptorStatus) (sound : s.Sound)
    (standing : Standing d { observed with deployUpdatedAt := status.deployUpdatedAt } s) :
    Ends (report { d with status } observed) s fun _ s' => Standing d status s' ∧
      (∀ j, j ≠ .descriptors → Agrees j s s') ∧ s'.Sound := by
  unfold report
  simp only
  split
  · exact (ends_modify_descriptor sound standing fun _ _ => rfl).discard.mono
      fun _ _ ⟨_, standing, others, sound, _⟩ => ⟨standing, others, sound⟩
  · rename_i same
    refine ends_pure ⟨?_, fun j _ => Agrees.refl j s, sound⟩
    rwa [← not_not.1 same] at standing

/-- Some releases are deleted, and nothing else is touched. -/
theorem ends_removeAll (sound : s.Sound) (xs : List Release) (query : Selector) :
    Ends (xs.mapM Release.remove) s fun _ s' =>
      (s'.scan .releases query).Perm (without (xs.map (·.key)) (s.scan .releases query)) ∧
        (∀ key, s'.getByKey .releases key =
          if key ∈ xs.map (·.key) then none else s.getByKey .releases key) ∧
        (∀ j, j ≠ .releases → Agrees j s s') ∧ s'.Sound := by
  induction xs generalizing s with
  | nil =>
      rw [List.mapM_nil]
      refine ends_pure ⟨?_, fun key => by simp, fun j _ => Agrees.refl j s, sound⟩
      have all : without [] (s.scan .releases query) = s.scan .releases query := by
        simp [without]
      rw [List.map_nil, all]
  | cons x xs ih =>
      have removed : Ends (Release.remove x) s fun _ s' =>
          s' = (s.delete .releases x.info.ns x.info.name).2 := ends_write rfl rfl
      rw [List.mapM_cons]
      refine removed.bind ?_
      rintro gone s₁ rfl
      refine (ih (sound.delete _ _ _)).bind ?_
      rintro rest s' ⟨scanned, there, others, sound'⟩
      refine ends_pure ⟨?_, fun key => ?_, fun j ne => (agrees_delete ne ..).trans (others j ne),
        sound'⟩
      · rw [List.map_cons, without_cons]
        exact scanned.trans ((scan_delete sound ..).filter _)
      · have first : objectKey x.info.ns x.info.name = x.key := rfl
        rw [there, getByKey_delete, first, List.map_cons]
        by_cases later : key ∈ xs.map (·.key)
        · rw [if_pos later, if_pos (List.mem_cons_of_mem _ later)]
        · simp only [List.mem_cons, later, or_false, if_false]

theorem ends_collectGarbage (sound : s.Sound) (xs : List Release) (now : Nat) (query : Selector) :
    Ends (Release.collectGarbage xs now) s fun _ s' =>
      (s'.scan .releases query).Perm
        (without ((Release.expired xs now).map (·.key)) (s.scan .releases query)) ∧
        (∀ key, s'.getByKey .releases key = if key ∈ (Release.expired xs now).map (·.key) then none
          else s.getByKey .releases key) ∧
        (∀ j, j ≠ .releases → Agrees j s s') ∧ s'.Sound := by
  unfold Release.collectGarbage
  exact (ends_removeAll sound _ query).bind fun _ _ holds => ends_pure holds

/-- An autoscaler is attached or detached. -/
theorem ends_reconcile (sound : s.Sound) (d : Descriptor) (rs : List Release) :
    Ends (Binding.reconcile d rs) s fun d' s' =>
      (∃ scaledAt, d' = { d with status.lastScaledAt := scaledAt }) ∧
        (∀ j, j ≠ .autoscalers → Agrees j s s') ∧ s'.Sound := by
  have removed (scalers : List Autoscaler) : Ends (scalers.forM Binding.remove) s fun _ s' =>
      (∀ j, j ≠ .autoscalers → Agrees j s s') ∧ s'.Sound := by
    refine ends_forM (fun a _ s₁ kept => ?_) ⟨fun j _ => Agrees.refl j s, sound⟩
    exact ends_write rfl ⟨fun j ne => (kept.1 j ne).trans (agrees_delete ne ..), kept.2.delete _ _ _⟩
  unfold Binding.reconcile
  refine ends_read ?_
  cases Binding.boundRelease? d rs with
  | none =>
      refine (removed _).bind ?_
      rintro - s' ⟨others, sound'⟩
      exact ends_pure ⟨⟨d.status.lastScaledAt, rfl⟩, others, sound'⟩
  | some r =>
      refine (removed _).bind ?_
      rintro - s₁ ⟨others, sound₁⟩
      refine (ends_apply sound₁ (Binding.autoscalerFor d r)).bind ?_
      rintro ⟨scaler, changed⟩ s' ⟨-, -, others', sound'⟩
      exact ends_pure ⟨⟨scaler.status.lastScaleTime, rfl⟩,
        fun j ne => (others j ne).trans (others' j ne), sound'⟩

theorem ends_publish (sound : s.Sound) (d : Descriptor) (rs : List Release) :
    Ends (Routing.publish d rs) s fun _ s' =>
      (∃ split, s'.get .trafficSplits d.spec.target d.spec.app = some split ∧
        split.spec = (Routing.splitFor d rs).spec) ∧
        (∀ j, j ≠ .trafficSplits → Agrees j s s') ∧ s'.Sound := by
  unfold Routing.publish
  refine (ends_apply sound (Routing.splitFor d rs)).bind ?_
  rintro ⟨split, changed⟩ s' ⟨spec, found, others, sound'⟩
  exact ends_pure ⟨⟨split, found, spec⟩, others, sound'⟩

end Cutover.Deployment
