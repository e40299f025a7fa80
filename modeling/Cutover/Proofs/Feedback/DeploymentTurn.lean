/-
# Cutover.Proofs.Feedback.DeploymentTurn -- a pass over a settled descriptor

On a settled store the pass over the descriptor succeeds.  It cuts no release, gives the
active one the descriptor's count, and mirrors the count the release has seen
(`ends_deployment`).  It may put other releases away and drop old ones, and the store
stays settled through all of its writes.
-/
import Cutover.Proofs.Deployment.Persist
import Cutover.Proofs.Deployment.Steps

namespace Cutover.Feedback

set_option autoImplicit false

variable {s s' : Store} {d : Descriptor} {r : Release}

/-! ## Before the ramp -/

theorem Settled.ends_configure (settled : Settled s d r) :
    Pass.Ends (Deployment.configure d) s fun config s' => config = configOf s d ∧
      Settled s' d r ∧ ∀ j, j ≠ .configMaps → Store.Agrees j s s' := by
  refine (Deployment.ends_configure settled.sound d).mono ?_
  rintro config s' ⟨same, others, sound, -⟩
  exact ⟨same, settled.inert (.inl rfl) others sound, others⟩

/-- No release is cut where one is as the descriptor asks. -/
theorem candidates_eq_of_current (listed : r ∈ releasesOf s d)
    (current : Deployment.isCurrent d.spec.fingerprint (configOf s d) r = true) (build : Build) :
    Deployment.candidates s d build (configOf s d) =
      Release.sortNewestFirst (releasesOf s d) := by
  have current : (releasesOf s d).any (Deployment.isCurrent d.spec.fingerprint (configOf s d)) =
      true := List.any_eq_true.2 ⟨r, listed, current⟩
  unfold Deployment.candidates
  unfold releasesOf at current ⊢
  simp only [current, if_true]

theorem sortNewestFirst_perm (rs : List Release) : (Release.sortNewestFirst rs).Perm rs :=
  List.mergeSort_perm ..

theorem index_eq_of_key_eq {rs : List Release} (distinct : (rs.map (·.key)).Nodup) {i j : Nat}
    {o r : Release} (hi : rs[i]? = some o) (hj : rs[j]? = some r) (same : o.key = r.key) :
    i = j := by
  have lt : i < (rs.map (·.key)).length := by
    rw [List.length_map]
    exact (List.getElem?_eq_some_iff.1 hi).1
  refine (List.getElem?_inj lt distinct).1 ?_
  rw [List.getElem?_map, List.getElem?_map, hi, hj]
  exact congrArg some same

theorem distinct_sorted (sound : s.Sound) (d : Descriptor) :
    ((Release.sortNewestFirst (releasesOf s d)).map (·.key)).Nodup :=
  ((sortNewestFirst_perm _).map _).nodup_iff.2
    (Store.nodup_matching sound (Selector.entries_ofTarget ..))

/-- The sorted releases are at rest at the settled one. -/
theorem Settled.exists_atRest (settled : Settled s d r) :
    ∃ c, Ramp.AtRest (Release.sortNewestFirst (releasesOf s d)) c r := by
  have perm := sortNewestFirst_perm (releasesOf s d)
  obtain ⟨c, here⟩ := List.getElem?_of_mem (perm.mem_iff.2 settled.listed)
  refine ⟨c, here, settled.active, fun i o at_ ne => ?_⟩
  refine settled.newest o (perm.mem_iff.1 (List.mem_of_getElem? at_)) fun same => ne ?_
  exact index_eq_of_key_eq (distinct_sorted settled.sound d) at_ here same

/-! ## The releases -/

/-- What a pass of the ramp makes of a release of a rollout at rest at the release of a
key. -/
structure Moved (key : String) (count : Nat) (n o : Release) : Prop where
  info : n.info = { o.info with labels := o.info.labels.erase Label.promotionTarget }
  status : n.status = o.status
  spec : n.spec = { o.spec with
    role := n.spec.role, traffic := n.spec.traffic, numDesired := n.spec.numDesired }
  settled : o.key = key → n.spec.role = .active ∧ n.spec.numDesired = count
  other : o.key ≠ key → n.spec.role = .none ∧ o.spec.role ≠ .bad ∨ n.spec.role = .bad

section Moved

variable {key : String} {count : Nat} {n o : Release} (moved : Moved key count n o)

include moved

theorem Moved.rework : Deployment.Rework n o where
  info := by rw [moved.info]
  status := moved.status
  spec := moved.spec
  labels := by
    intro label ne
    unfold Object.label?
    rw [moved.info]
    exact Dict.get?_erase_of_ne _ ne

theorem Moved.active_iff : n.spec.role = .active ↔ o.key = key := by
  constructor
  · intro active
    by_contra ne
    rcases moved.other ne with ⟨none_, -⟩ | bad
    · rw [none_] at active
      cases active
    · rw [bad] at active
      cases active
  · exact fun same => (moved.settled same).1

theorem Moved.not_target : n.spec.role ≠ .target := by
  by_cases same : o.key = key
  · simp [(moved.settled same).1]
  · rcases moved.other same with ⟨none_, -⟩ | bad
    · simp [none_]
    · simp [bad]

theorem Moved.keeps {version : Nat} (accepted : o.info.isPersisted = true)
    (accepted' : ({ n with info.specVersion := version } : Release).info.isPersisted = true) :
    Keeps o { n with info.specVersion := version } := by
  obtain ⟨info, spec, status⟩ := n
  obtain ⟨rfl, rfl, -, -, -⟩ := moved
  refine ⟨rfl, rfl, rfl, ?_, fun label ne => Dict.get?_erase_of_ne _ ne, fun value has => ?_⟩
  · rw [accepted, accepted']
  · exact absurd has (by simp [Object.label?])

end Moved

theorem isDeployable_of_moved {key : String} {count version : Nat} {n o : Release}
    (moved : Moved key count n o) (ne : o.key ≠ key)
    (deployable : Release.isDeployable { n with info.specVersion := version } = true) :
    Release.isDeployable o = true := by
  have status := moved.status
  rcases moved.other ne with ⟨none_, notBad⟩ | bad
  · simp [Release.isDeployable, none_, status] at deployable
    simp [Release.isDeployable, notBad, deployable]
  · simp [Release.isDeployable, bad] at deployable

/-- Another release than the settled one is stored. -/
theorem Settled.store_other {key : String} {count version : Nat} {n o : Release}
    (settled : Settled s d r) (moved : Moved key count n o)
    (stored : s.getByKey .releases o.key = some o) (key_eq : r.key = key) (ne : o.key ≠ key)
    (keeps : Keeps o { n with info.specVersion := version })
    (replaces : Store.Replaces o { n with info.specVersion := version } s s') :
    Settled s' d r := by
  have not_active : n.spec.role ≠ .active := fun active => ne (moved.active_iff.1 active)
  refine settled.replace_other stored keeps (key_eq ▸ ne) not_active moved.not_target ?_ replaces
  exact isDeployable_of_moved moved ne

/-- The settled release is stored. -/
theorem Settled.store_active {key : String} {count version : Nat} {n : Release}
    (settled : Settled s d r) (moved : Moved key count n r) (key_eq : r.key = key)
    (keeps : Keeps r { n with info.specVersion := version })
    (replaces : Store.Replaces r { n with info.specVersion := version } s s') :
    Settled s' d { n with info.specVersion := version } := by
  have config : n.spec.config = r.spec.config := by rw [moved.spec]
  have build : n.spec.build = r.spec.build := by rw [moved.spec]
  have target : n.spec.target = r.spec.target := by rw [moved.spec]
  have runtime : n.spec.runtime = r.spec.runtime := by rw [moved.spec]
  exact settled.replace_active keeps (moved.settled key_eq).1 config build target runtime replaces

/-- What is kept by the writes of releases that the ramp has moved. -/
structure Lasting (P : Store → Release → Prop) (key : String) (count : Nat) : Prop where
  sound : ∀ {s r}, P s r → s.Sound
  found : ∀ {s r}, P s r → s.getByKey .releases r.key = some r
  other : ∀ {s s' r n o version}, P s r → r.key = key → o.key ≠ key →
    s.getByKey .releases o.key = some o → Moved key count n o →
    Keeps o { n with info.specVersion := version } →
    Store.Replaces o { n with info.specVersion := version } s s' → P s' r
  active : ∀ {s s' r n version}, P s r → r.key = key → Moved key count n r →
    Keeps r { n with info.specVersion := version } →
    Store.Replaces r { n with info.specVersion := version } s s' →
    P s' { n with info.specVersion := version }

/-- What is stored when some releases have been stored as the ramp left them. -/
structure Written (pairs : List (Release × Release)) (xs : List Release) : Prop where
  of_mem : ∀ x ∈ xs, ∃ p ∈ pairs, ∃ version, x = { p.1 with info.specVersion := version }
  exists_mem : ∀ p ∈ pairs, ∃ x ∈ xs, ∃ version, x = { p.1 with info.specVersion := version }

theorem Written.cons {p : Release × Release} {pairs : List (Release × Release)} {xs : List Release}
    (written : Written pairs xs) (version : Nat) :
    Written (p :: pairs) ({ p.1 with info.specVersion := version } :: xs) where
  of_mem := by
    refine List.forall_mem_cons.2 ⟨⟨p, List.mem_cons_self, version, rfl⟩, fun x inside => ?_⟩
    obtain ⟨q, there, same⟩ := written.of_mem x inside
    exact ⟨q, List.mem_cons_of_mem _ there, same⟩
  exists_mem := by
    refine List.forall_mem_cons.2 ⟨⟨_, List.mem_cons_self, version, rfl⟩, fun q inside => ?_⟩
    obtain ⟨x, there, same⟩ := written.exists_mem q inside
    exact ⟨x, List.mem_cons_of_mem _ there, same⟩

/-- The releases are stored one after the other.  The one of the key has its count then. -/
theorem Lasting.ends_persistAll {P : Store → Release → Prop} {key : String} {count : Nat}
    (lasting : Lasting P key count) (holds : P s r) (key_eq : r.key = key)
    {pairs : List (Release × Release)} (moved : ∀ p ∈ pairs, Moved key count p.1 p.2)
    (stored : ∀ p ∈ pairs, s.getByKey .releases p.2.key = some p.2)
    (distinct : (pairs.map (·.2.key)).Nodup) :
    Pass.Ends (Deployment.persistAll pairs) s fun xs s' => ∃ r', P s' r' ∧
      r'.key = key ∧ r'.name = r.name ∧ r'.status = r.status ∧
      r'.spec.numDesired = (if key ∈ pairs.map (·.2.key) then count else r.spec.numDesired) ∧
      Written pairs xs ∧ Store.Agrees .replicaGroups s s' := by
  unfold Deployment.persistAll
  induction pairs generalizing s r with
  | nil =>
      have written : Written [] [] := ⟨by simp, by simp⟩
      exact Pass.ends_pure ⟨r, holds, key_eq, rfl, rfl, by simp, written, Store.Agrees.refl ..⟩
  | cons p pairs ih =>
      obtain ⟨n, o⟩ := p
      obtain ⟨here, there⟩ := List.forall_mem_cons.1 moved
      obtain ⟨found, rest⟩ := List.forall_mem_cons.1 stored
      obtain ⟨fresh, distinct₁⟩ := List.nodup_cons.1 distinct
      have sound := lasting.sound holds
      rw [List.mapM_cons]
      refine (Deployment.ends_persist here.rework sound found).bind ?_
      rintro x s₁ ⟨replaces, accepted, version, rfl⟩
      have keeps := here.keeps (sound.accepted _ _ o found) accepted
      have rest₁ : ∀ p ∈ pairs, s₁.getByKey .releases p.2.key = some p.2 := by
        intro p member
        rw [replaces.there _ fun same => fresh (List.mem_map.2 ⟨p, member, same⟩)]
        exact rest p member
      have groups := replaces.others .replicaGroups (by decide)
      by_cases same : o.key = key
      · obtain rfl : r = o := by
          rw [same, ← key_eq, lasting.found holds] at found
          exact Option.some.inj found
        have holds₁ := lasting.active holds key_eq here keeps replaces
        refine (ih holds₁ (keeps.key.trans same) there rest₁ distinct₁).bind ?_
        rintro xs s' ⟨r', holds', key', name', status', count', written, agrees⟩
        refine Pass.ends_pure ⟨r', holds', key', name'.trans keeps.name, status'.trans here.status, ?_,
          written.cons version, groups.trans agrees⟩
        have inside : key ∈ ((n, r) :: pairs).map (·.2.key) :=
          List.mem_map.2 ⟨_, List.mem_cons_self, same⟩
        rw [if_pos inside, count']
        split
        · rfl
        · exact (here.settled same).2
      · have holds₁ := lasting.other holds key_eq same found here keeps replaces
        refine (ih holds₁ key_eq there rest₁ distinct₁).bind ?_
        rintro xs s' ⟨r', holds', key', name', status', count', written, agrees⟩
        refine Pass.ends_pure ⟨r', holds', key', name', status', ?_, written.cons version,
          groups.trans agrees⟩
        have inside : key ∈ ((n, o) :: pairs).map (·.2.key) ↔ key ∈ pairs.map (·.2.key) := by
          rw [List.map_cons, List.mem_cons]
          exact or_iff_right (Ne.symm same)
        rw [count']
        simp only [inside]

theorem Settled.lasting (d : Descriptor) (key : String) (count : Nat) :
    Lasting (fun s r => Settled s d r) key count where
  sound settled := settled.sound
  found settled := settled.found
  other settled key_eq ne stored moved keeps replaces :=
    settled.store_other moved stored key_eq ne keeps replaces
  active settled key_eq moved keeps replaces := settled.store_active moved key_eq keeps replaces

/-- The releases of a settled store are stored.  What is stored has a key of its own or is
active. -/
theorem Settled.ends_persistAll (settled : Settled s d r) {key : String} {count : Nat}
    (key_eq : r.key = key) {pairs : List (Release × Release)}
    (moved : ∀ p ∈ pairs, Moved key count p.1 p.2)
    (stored : ∀ p ∈ pairs, s.getByKey .releases p.2.key = some p.2)
    (distinct : (pairs.map (·.2.key)).Nodup) :
    Pass.Ends (Deployment.persistAll pairs) s fun xs s' => ∃ r', Settled s' d r' ∧
      r'.key = key ∧ r'.status = r.status ∧
      r'.spec.numDesired = (if key ∈ pairs.map (·.2.key) then count else r.spec.numDesired) ∧
      (∀ x ∈ xs, x.key = key → x.spec.role = .active) ∧
      Store.Agrees .replicaGroups s s' := by
  refine ((Settled.lasting d key count).ends_persistAll settled key_eq moved stored distinct).mono ?_
  rintro xs s' ⟨r', settled', key', -, status', count', written, agrees⟩
  refine ⟨r', settled', key', status', count', fun x inside same => ?_, agrees⟩
  obtain ⟨p, there, version, rfl⟩ := written.of_mem x inside
  exact (moved p there).active_iff.2 ((moved p there).rework.key.symm.trans same)

theorem map_key_zip {news olds : List Release} (long : olds.length ≤ news.length) :
    (news.zip olds).map (·.2.key) = olds.map (·.key) := by
  calc (news.zip olds).map (·.2.key)
      = ((news.zip olds).map Prod.snd).map (·.key) := by rw [List.map_map]; rfl
    _ = olds.map (·.key) := by rw [List.map_snd_zip long]

/-- What a plan that keeps the active release makes of all releases. -/
theorem moved_of_mem_zip {rs : List Release} {c : Nat} {p : Ramp.Plan} {desired timeout now : Nat}
    (here : rs[c]? = some r) (active : p.active = c) (target : p.target = c)
    (distinct : (rs.map (·.key)).Nodup) :
    ∀ x ∈ (p.spread desired timeout now rs).zip rs, Moved r.key p.count x.1 x.2 := by
  rintro ⟨n, o⟩ member
  obtain ⟨i, at_⟩ := List.getElem?_of_mem member
  obtain ⟨new, old⟩ := List.getElem?_zip_eq_some.1 at_
  rw [Ramp.spread_getElem?, old] at new
  obtain rfl : p.mark i (p.assign desired timeout now i o) = n := Option.some.inj new
  have unmarked : ¬ (i = p.target ∧ p.target ≠ p.active) := fun h => h.2 (target.trans active.symm)
  constructor
  · show ({ (p.assign desired timeout now i o).info with labels := _ } : Meta) = _
    rw [if_neg unmarked, Ramp.info_assign]
  · exact (Deployment.rework_of_mem_zip _ member).status
  · exact (Deployment.rework_of_mem_zip _ member).spec
  · intro same
    obtain rfl : i = c := index_eq_of_key_eq distinct old here same
    rw [Ramp.mark_spec, Ramp.role_assign, Ramp.numDesired_assign, if_pos active.symm,
      if_pos target.symm]
    exact ⟨rfl, rfl⟩
  · intro ne
    have other : i ≠ c := by
      rintro rfl
      exact ne (congrArg Object.key (Option.some.inj (old.symm.trans here)))
    rw [Ramp.mark_spec, Ramp.role_assign, if_neg (active ▸ other), if_neg (target ▸ other)]
    by_cases bad : o.spec.role = .bad
    · exact .inr (if_pos bad)
    · exact .inl ⟨if_neg bad, bad⟩

/-! ## After the ramp -/

/-- What every later write keeps: the store is settled, and no group is touched. -/
def Kept (s₀ : Store) (d : Descriptor) (r : Release) (s : Store) : Prop :=
  Settled s d r ∧ Store.Agrees .replicaGroups s₀ s

/-- Old releases are dropped, and an active one is not. -/
theorem ends_collectGarbage {s₀ : Store} (kept : Kept s₀ d r s) {xs : List Release}
    (actives : ∀ x ∈ xs, x.key = r.key → x.spec.role = .active) (now : Nat) :
    Pass.Ends (Release.collectGarbage xs now) s fun _ s' => Kept s₀ d r s' := by
  have each : ∀ x ∈ Release.expired xs now, ∀ s, Kept s₀ d r s →
      Pass.Ends (Release.remove x) s fun _ s' => Kept s₀ d r s' := by
    rintro x member s ⟨settled, groups⟩
    obtain ⟨inside, expired⟩ := List.mem_filter.1 member
    have ne : x.key ≠ r.key := by
      intro same
      have active := actives x (List.mem_of_mem_drop inside) same
      simp [Release.isExpired, active] at expired
    exact Pass.ends_write rfl ⟨settled.remove_release ne,
      groups.trans (Store.agrees_delete (by decide) ..)⟩
  unfold Release.collectGarbage
  exact (Pass.ends_mapM each kept).bind fun _ _ kept => Pass.ends_pure kept

/-- A descriptor that needs no autoscaler keeps none. -/
theorem ends_reconcile {s₀ : Store} (kept : Kept s₀ d r s) {d' : Descriptor}
    (unscaled : d'.needsAutoscaler = false) (rs : List Release) :
    Pass.Ends (Binding.reconcile d' rs) s fun d'' s' => d'' = d' ∧ Kept s₀ d r s' := by
  have none_ : Binding.boundRelease? d' rs = none := by
    unfold Binding.boundRelease?
    simp [unscaled]
  unfold Binding.reconcile
  refine Pass.ends_read ?_
  simp only [none_]
  refine (Pass.ends_forM (fun a _ s kept => ?_) kept).bind fun _ _ kept => Pass.ends_pure ⟨rfl, kept⟩
  exact Pass.ends_write rfl ⟨kept.1.remove_autoscaler .., kept.2.trans
    (Store.agrees_delete (by decide) ..)⟩

theorem ends_publish {s₀ : Store} (kept : Kept s₀ d r s) (d' : Descriptor) (rs : List Release) :
    Pass.Ends (Routing.publish d' rs) s fun _ s' => Kept s₀ d r s' := by
  refine (Deployment.ends_publish kept.1.sound d' rs).mono ?_
  rintro changed s' ⟨-, others, sound⟩
  exact ⟨kept.1.inert (.inr (.inl rfl)) others sound, kept.2.trans (others _ (by decide))⟩

/-- The stored descriptor differs from the one that was read in its status at most. -/
structure Restated (d d' : Descriptor) (status : DescriptorStatus) : Prop where
  key : d'.key = d.key
  ns : d'.info.ns = d.info.ns
  name : d'.info.name = d.info.name
  spec : d'.spec = d.spec
  status : d'.status = status

theorem Settled.ends_modify_descriptor (settled : Settled s d r)
    (f : Descriptor → DescriptorStatus) :
    Pass.Ends (Store.modifyStatus .descriptors d.info.ns d.info.name f) s fun _ s' =>
      ∃ d', Settled s' d' r ∧ Restated d d' (f d) ∧
        ∀ j, j ≠ .descriptors → Store.Agrees j s s' := by
  refine (Store.ends_modifyStatus settled.sound settled.described f).mono ?_
  rintro - s' ⟨version, replaces⟩
  exact ⟨_, settled.restate replaces rfl rfl, ⟨rfl, rfl, rfl, rfl, rfl⟩, replaces.others⟩

/-- The time of the last movement is stored. -/
theorem Settled.ends_stamp (settled : Settled s d r) (status : DescriptorStatus) :
    Pass.Ends (Deployment.stamp { d with status } d.status) s fun _ s' =>
      ∃ d', Settled s' d' r ∧
        Restated d d' { d.status with deployUpdatedAt := status.deployUpdatedAt } ∧
        ∀ j, j ≠ .descriptors → Store.Agrees j s s' := by
  unfold Deployment.stamp
  simp only
  split
  · exact (settled.ends_modify_descriptor _).discard.mono fun _ _ ⟨_, ends⟩ => ends
  · rename_i same
    refine Pass.ends_pure ⟨d, settled, ⟨rfl, rfl, rfl, rfl, ?_⟩, fun j _ => Store.Agrees.refl j s⟩
    rw [not_not.1 same]

/-- The status is stored, if it is not the one that was read. -/
theorem Settled.ends_report {d₁ : Descriptor} {status : DescriptorStatus}
    (settled : Settled s d₁ r)
    (restated : Restated d d₁ { d.status with deployUpdatedAt := status.deployUpdatedAt }) :
    Pass.Ends (Deployment.report { d with status } d.status) s fun _ s' =>
      ∃ d', Settled s' d' r ∧ Restated d d' status ∧
        ∀ j, j ≠ .descriptors → Store.Agrees j s s' := by
  unfold Deployment.report
  simp only
  split
  · rw [← restated.ns, ← restated.name]
    refine (settled.ends_modify_descriptor _).discard.mono ?_
    rintro - s' ⟨-, d', settled', again, others⟩
    exact ⟨d', settled', ⟨again.key.trans restated.key, again.ns.trans restated.ns,
      again.name.trans restated.name, again.spec.trans restated.spec, again.status⟩, others⟩
  · rename_i same
    refine Pass.ends_pure ⟨d₁, settled, ⟨restated.key, restated.ns, restated.name, restated.spec,
      ?_⟩, fun j _ => Store.Agrees.refl j s⟩
    rw [restated.status, not_not.1 same]

/-- The ramp's result is carried out.  In the end the descriptor has the status that the ramp
gave it. -/
theorem Settled.ends_carryOut (settled : Settled s d r) {rs : List Release} {c now : Nat}
    {p : Ramp.Plan} {status : DescriptorStatus} {result : Ramp.Result}
    (rest : Ramp.AtRest rs c r) (active : p.active = c) (target : p.target = c)
    (distinct : (rs.map (·.key)).Nodup) (stored : ∀ o ∈ rs, s.getByKey .releases o.key = some o)
    (releases : result.releases = p.spread d.desiredInstances d.readinessTimeout now rs)
    (descriptor : result.descriptor = { d with status }) :
    Pass.Ends (Deployment.carryOut result d.status rs now) s fun _ s' => ∃ d' r',
      Settled s' d' r' ∧ Restated d d' status ∧ r'.key = r.key ∧ r'.status = r.status ∧
        r'.spec.numDesired = p.count ∧ Store.Agrees .replicaGroups s s' := by
  unfold Deployment.carryOut
  rw [descriptor, releases]
  refine (settled.ends_stamp status).within.bind ?_
  rintro - s₁ ⟨d₁, settled₁, stamped, others₁⟩
  have long : rs.length ≤ (p.spread d.desiredInstances d.readinessTimeout now rs).length :=
    Nat.le_of_eq Ramp.length_spread.symm
  have stored₁ : ∀ x ∈ (p.spread d.desiredInstances d.readinessTimeout now rs).zip rs,
      s₁.getByKey .releases x.2.key = some x.2 := by
    rintro ⟨n, o⟩ member
    rw [(others₁ .releases (by decide)).getByKey]
    exact stored o (List.of_mem_zip member).2
  refine (settled₁.ends_persistAll rfl (moved_of_mem_zip rest.here active target distinct) stored₁
    (by rwa [map_key_zip long])).within.bind ?_
  rintro xs s₂ ⟨r', settled₂, key, seen, count, actives, groups₂⟩
  have counted : r'.spec.numDesired = p.count := by
    rw [count, map_key_zip long,
      if_pos (List.mem_map.2 ⟨r, List.mem_of_getElem? rest.here, rfl⟩)]
  have kept₂ : Kept s d₁ r' s₂ :=
    ⟨settled₂, (others₁ .replicaGroups (by decide)).trans groups₂⟩
  refine (ends_collectGarbage kept₂ (key ▸ actives) now).within.discard.bind ?_
  rintro - s₃ ⟨-, kept₃⟩
  refine (ends_reconcile kept₃ (show ({ d with status } : Descriptor).needsAutoscaler = false from
    settled.unscaled) xs).within.bind ?_
  rintro - s₄ ⟨rfl, kept₄⟩
  refine (ends_publish kept₄ _ xs).within.discard.bind ?_
  rintro - s₅ ⟨-, settled₅, groups₅⟩
  refine (settled₅.ends_report stamped).within.mono ?_
  rintro - s₆ ⟨d', settled₆, restated, others₆⟩
  exact ⟨d', r', settled₆, restated, key, seen, counted,
    groups₅.trans (others₆ .replicaGroups (by decide))⟩

/-- **A pass over a settled descriptor.**  The release gets the descriptor's count, and the
descriptor takes over the count that the release has seen. -/
theorem Settled.ends_deployment (settled : Settled s d r) (now : Nat) :
    Pass.Ends (Deployment.run d.key now) s fun _ s' => ∃ d' r', Settled s' d' r' ∧
      d'.key = d.key ∧ d'.spec = d.spec ∧ r'.key = r.key ∧
      r'.spec.numDesired = d.desiredInstances ∧ r'.status = r.status ∧
      d'.status.numDesired = r.status.numDesired ∧ Store.Agrees .replicaGroups s s' := by
  unfold Deployment.run
  refine Pass.ends_read ?_
  simp only [settled.described]
  unfold Deployment.deploy
  refine settled.ends_configure.bind ?_
  rintro config s₁ ⟨rfl, settled₁, others₁⟩
  obtain ⟨build, built⟩ := Option.isSome_iff_exists.1 settled₁.built
  refine Pass.ends_read ?_
  simp only [built]
  refine Pass.ends_read ?_
  rw [← configOf_of_agrees (others₁ .appConfigs (by decide)) rfl,
    candidates_eq_of_current settled₁.listed settled₁.current build]
  obtain ⟨c, rest⟩ := settled₁.exists_atRest
  have accepted := settled₁.sound.accepted _ _ r settled₁.found
  obtain ⟨p, status, passed, active, target, count, releases, descriptor, seen⟩ :=
    rest.ahead.pass_eq_ok d now accepted
  simp only [passed]
  have stored : ∀ o ∈ Release.sortNewestFirst (releasesOf s₁ d),
      s₁.getByKey .releases o.key = some o := fun o member =>
    ((Store.mem_ofTarget settled₁.sound).1 ((sortNewestFirst_perm _).mem_iff.1 member)).1
  refine (settled₁.ends_carryOut rest active target (distinct_sorted settled₁.sound d) stored releases
    descriptor).bind ?_
  rintro - s' ⟨d', r', settled', restated, key, same, counted, groups⟩
  refine Pass.ends_pure ⟨d', r', settled', restated.key, restated.spec, key, counted.trans count,
    same, ?_, (others₁ .replicaGroups (by decide)).trans groups⟩
  rw [restated.status, seen]

end Cutover.Feedback
