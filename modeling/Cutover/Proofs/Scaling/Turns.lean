/-
# Cutover.Proofs.Scaling.Turns -- passes over a descriptor and a release that are steered

On a steered store both passes succeed and leave the group of instances alone.  The pass over the
release takes over the size of the group into its status (`Steered.ends_release`).  The pass over
the descriptor gives the release the count that the descriptor mirrors, within its bounds, and
mirrors the one that the release has seen.

Of that pass only the binding of the autoscaler writes autoscalers.  What it makes of them is a
parameter (`Rebinds`) of the lemma about the whole pass (`Scaled.ends_deployment`); an autoscaler
that is attached under an entry of its own stays attached (`Bound.rebinds`), so a steered store is
left steered (`Steered.ends_deployment`).
-/
import Cutover.Proofs.Feedback.Schedule
import Cutover.Proofs.Scaling.Steered

namespace Cutover.Steering

set_option autoImplicit false

open Feedback Store

variable {s s' : Store} {d : Descriptor} {r : Release}

/-! ## The release -/

/-- The size of a group that an autoscaler steers is left to it. -/
theorem Steered.autoscaledGroup?_eq (steered : Steered s d r) (unmarked : Unmarked r) :
    ∃ live, ReleasePass.autoscaledGroup? s r = some live ∧
      live.spec.replicas = groupSize s r.key := by
  have live := steered.live
  unfold groupSize at live ⊢
  cases found : s.getByKey .replicaGroups r.key with
  | none =>
      rw [found] at live
      exact absurd rfl live
  | some group =>
      rw [found] at live
      have there : s.get .replicaGroups r.info.ns r.name = some group := found
      have some_ : group.spec.replicas ≠ 0 := live
      have bound : ((s.matching .autoscalers (Selector.ofRelease r.name)).any
          fun a => a.info.ns = r.info.ns) = true := by
        obtain ⟨a, member, steers⟩ := steered.attached
        exact List.any_eq_true.2 ⟨a, member, decide_eq_true steers.ns⟩
      refine ⟨group, ?_, rfl⟩
      unfold ReleasePass.autoscaledGroup?
      rw [show r.label? Label.promotionTarget = none from unmarked, there]
      simp [steered.leading.active, Nat.ne_of_gt steered.wanted, some_, bound]

/-- The release gets another status. -/
theorem Steered.restate_release (steered : Steered s d r) {status : ReleaseStatus} {version : Nat}
    (replaces : Replaces r { r with status, info.statusVersion := version } s s') :
    Steered s' d { r with status, info.statusVersion := version } := by
  have keeps : Keeps r { r with status, info.statusVersion := version } :=
    ⟨rfl, rfl, rfl, rfl, fun _ _ => rfl, fun _ has => has⟩
  have groups := replaces.others .replicaGroups (by decide)
  have descriptors := replaces.others .descriptors (by decide)
  have bound : Bound s' d { r with status, info.statusVersion := version } :=
    (steered.bound.of_agrees (replaces.others _ (by decide))).congr rfl rfl rfl
  constructor
  · constructor
    · exact replaces.sound
    · rw [descriptors.getByKey]
      exact steered.described
    · exact steered.latest
    · exact steered.least
    · exact steered.scaled
    · exact steered.leading.replace_active steered.sound steered.listing keeps
        steered.leading.active rfl replaces
    · exact steered.wanted
    · exact bound.attached
    · rw [keeps.key, groupSize_of_agrees groups]
      exact steered.live
  · exact steered.listing.replace (steered.leading.found steered.sound) keeps replaces
  · exact bound.reserved

/-- **A pass over a steered release.**  It touches no group, and the release sees the size of its
own. -/
theorem Steered.ends_release (steered : Steered s d r) (unmarked : Unmarked r) {key : String}
    (reached : objectKey (splitKey key).1 (splitKey key).2 = r.key) (now : Nat) :
    Pass.Ends (ReleasePass.run key now) s fun _ s' => ∃ r', Steered s' d r' ∧ Unmarked r' ∧
      r'.key = r.key ∧ r'.spec = r.spec ∧ r'.status.numDesired = groupSize s r.key ∧
      Agrees .replicaGroups s s' := by
  obtain ⟨live, scaled, size⟩ := steered.autoscaledGroup?_eq unmarked
  unfold ReleasePass.run
  generalize splitKey key = parts at reached ⊢
  obtain ⟨ns, name⟩ := parts
  have found : s.get .releases ns name = some r := by
    unfold Store.get
    rw [reached, steered.leading.found steered.sound]
  have settled : Pass.Ends (ReleasePass.settleGroup r ns name) s
      fun group s' => group = some live ∧ s' = s := by
    unfold ReleasePass.settleGroup
    rw [if_neg (Nat.ne_of_gt steered.wanted)]
    refine Pass.ends_read ?_
    simp only [scaled]
    exact Pass.ends_pure ⟨rfl, rfl⟩
  refine Pass.ends_read ?_
  simp only [found]
  refine settled.bind ?_
  rintro group s₁ ⟨rfl, rfl⟩
  refine Pass.ends_read ?_
  generalize ReleasePass.diagnosis? s₁ r _ _ _ now = diagnosis
  have observed : (r.nextStatus (ObservedCounts.ofGroup (some live)) diagnosis now).numDesired =
      groupSize s₁ r.key := size
  by_cases same : r.nextStatus (ObservedCounts.ofGroup (some live)) diagnosis now = r.status
  · rw [if_neg (not_not_intro same)]
    rw [same] at observed
    exact Pass.ends_pure ⟨r, steered, unmarked, rfl, rfl, observed, Agrees.refl _ s₁⟩
  · rw [if_pos same]
    refine (ends_modifyStatus steered.sound found _).within.discard.bind ?_
    rintro - s' ⟨-, version, replaces⟩
    exact Pass.ends_pure ⟨_, steered.restate_release replaces, unmarked, rfl, rfl, observed,
      replaces.others _ (by decide)⟩

/-! ## The descriptor -/

/-- Of the sorted releases the leading one is the first that is active. -/
theorem Leading.exists_ahead (leading : Leading s d r) (sound : s.Sound) :
    ∃ c, Ramp.Ahead (Release.sortNewestFirst (releasesOf s d)) c r := by
  have perm := sortNewestFirst_perm (releasesOf s d)
  have distinct := distinct_sorted sound d
  obtain ⟨c, here⟩ := List.getElem?_of_mem (perm.mem_iff.2 leading.listed)
  have others : ∀ i o, (Release.sortNewestFirst (releasesOf s d))[i]? = some o → i ≠ c →
      Release.Outdated r o := by
    intro i o at_ ne
    refine leading.outdated o (perm.mem_iff.1 (List.mem_of_getElem? at_)) fun same => ne ?_
    exact index_eq_of_key_eq distinct at_ here same
  refine ⟨c, here, leading.active, fun i o at_ before active => ?_, others⟩
  -- an active release is deployable, so it would be older and yet come before
  have older := (others i o at_ (Nat.ne_of_lt before)).older (Release.isDeployable_of_active active)
  obtain ⟨lt, rfl⟩ := List.getElem?_eq_some_iff.1 at_
  obtain ⟨lt', rfl⟩ := List.getElem?_eq_some_iff.1 here
  have sorted := List.pairwise_iff_getElem.1 (Release.sorted_sortNewestFirst _) i c lt lt' before
  rw [← Release.recency_swap, older] at sorted
  cases sorted

/-- What the writes of releases keep: one leads that has the name of the one before, and objects
of other kinds are not touched. -/
structure Course (s₀ : Store) (d : Descriptor) (r₀ : Release) (s : Store) (r : Release) : Prop where
  sound : s.Sound
  leading : Leading s d r
  listing : Listing s d r
  unmarked : Unmarked r
  name : r.info.name = r₀.info.name
  ns : r.info.ns = r₀.info.ns
  others : ∀ j, j ≠ .releases → Agrees j s₀ s

variable {s₀ : Store} {r₀ : Release}

/-- A write of a kind that the release does not depend on; what is kept is kept from then on. -/
theorem Course.renew (course : Course s₀ d r₀ s r) {k : Kind} (sound : s'.Sound)
    (others : ∀ j, j ≠ k → Agrees j s s')
    (inert : ∀ j ∈ [Kind.releases, .builds, .appConfigs], j ≠ k) : Course s' d r₀ s' r where
  sound := sound
  leading := course.leading.of_agrees (others _ (inert _ (by decide)))
    (others _ (inert _ (by decide))) (others _ (inert _ (by decide)))
  listing := Unshared.of_agrees course.listing (others _ (inert _ (by decide)))
  unmarked := course.unmarked
  name := course.name
  ns := course.ns
  others j _ := Agrees.refl j s'

/-- A write of a release after which one leads. -/
theorem Course.of_releases (course : Course s₀ d r₀ s r) {r' : Release} (sound : s'.Sound)
    (others : ∀ j, j ≠ .releases → Agrees j s s') (leading : Leading s' d r')
    (listing : Listing s' d r') (name : r'.info.name = r.info.name) (ns : r'.info.ns = r.info.ns)
    (unmarked : Unmarked r') : Course s₀ d r₀ s' r' where
  sound := sound
  leading := leading
  listing := listing
  unmarked := unmarked
  name := name.trans course.name
  ns := ns.trans course.ns
  others j ne := (course.others j ne).trans (others j ne)

/-- Releases that the ramp has moved may be stored. -/
theorem Course.lasting (s₀ : Store) (d : Descriptor) (r₀ : Release) (key : String) (count : Nat) :
    Lasting (fun s r => Course s₀ d r₀ s r) key count where
  sound course := course.sound
  found course := course.leading.found course.sound
  other := by
    intro s s' r n o version course key_eq ne stored moved keeps replaces
    have leading := course.leading.replace_other course.sound course.listing stored keeps
      (key_eq ▸ ne) moved.not_target (isDeployable_of_moved moved ne) replaces
    exact course.of_releases replaces.sound replaces.others leading
      (course.listing.replace stored keeps replaces) rfl rfl course.unmarked
  active := by
    intro s s' r n version course key_eq moved keeps replaces
    have config : n.spec.config = r.spec.config := by rw [moved.spec]
    have stored := course.leading.found course.sound
    have leading := course.leading.replace_active course.sound course.listing keeps
      (moved.active_iff.2 key_eq) config replaces
    have listing : Listing s' d { n with info.specVersion := version } := by
      show Unshared s' .releases Label.app d.spec.app (Object.key _)
      rw [keeps.key]
      exact course.listing.replace stored keeps replaces
    have unmarked : Unmarked { n with info.specVersion := version } := by
      show n.info.labels.get? Label.promotionTarget = none
      rw [moved.info]
      exact Dict.get?_erase_self ..
    exact course.of_releases replaces.sound replaces.others leading listing keeps.name keeps.ns
      unmarked

/-- Old releases are dropped, and an active one is not. -/
theorem Course.ends_collectGarbage (course : Course s₀ d r₀ s r) {xs : List Release}
    (actives : ∀ x ∈ xs, x.key = r.key → x.spec.role = .active) (now : Nat) :
    Pass.Ends (Release.collectGarbage xs now) s fun _ s' => Course s₀ d r₀ s' r := by
  have each : ∀ x ∈ Release.expired xs now, ∀ s, Course s₀ d r₀ s r →
      Pass.Ends (Release.remove x) s fun _ s' => Course s₀ d r₀ s' r := by
    intro x member s course
    obtain ⟨inside, expired⟩ := List.mem_filter.1 member
    have ne : x.key ≠ r.key := by
      intro same
      have active := actives x (List.mem_of_mem_drop inside) same
      simp [Release.isExpired, active] at expired
    have leading := course.leading.remove_other course.sound course.listing ne
    exact Pass.ends_write rfl (course.of_releases (course.sound.delete ..)
      (fun j ne => agrees_delete ne ..) leading (Unshared.delete course.listing _ _) rfl rfl
      course.unmarked)
  unfold Release.collectGarbage
  exact (Pass.ends_mapM each course).bind fun _ _ course => Pass.ends_pure course

/-! ### The autoscaler -/

/-- What binding the autoscaler of a descriptor to a release of some name does, on any store that
has these autoscalers, and what holds while the autoscalers are left as it leaves them. -/
def Rebinds (s : Store) (d : Descriptor) (name : String) (post : Store → Prop) : Prop :=
  ∀ (s₁ : Store) (d' : Descriptor) (xs : List Release) (x : Release), s₁.Sound →
    Agrees .autoscalers s s₁ → d'.spec = d.spec → Binding.boundRelease? d' xs = some x →
    x.info.name = name → Pass.Ends (Binding.reconcile d' xs) s₁ fun d'' s' =>
      (∃ scaledAt, d'' = { d' with status.lastScaledAt := scaledAt }) ∧ s'.Sound ∧
        (∀ j, j ≠ .autoscalers → Agrees j s₁ s') ∧ ∀ s'', Agrees .autoscalers s' s'' → post s''

/-- Some autoscalers have gone, and that of a release is attached. -/
structure Thinned (s : Store) (d : Descriptor) (r : Release) (s' : Store) : Prop where
  bound : Bound s' d r
  sound : s'.Sound
  others : ∀ j, j ≠ .autoscalers → Agrees j s s'
  before : ∀ key a, s'.getByKey .autoscalers key = some a → s.getByKey .autoscalers key = some a

theorem Thinned.remove (thinned : Thinned s d r s') {a : Autoscaler}
    (stored : s.getByKey .autoscalers a.key = some a)
    (other : a.label? Label.release ≠ some r.name) :
    Thinned s d r (s'.delete .autoscalers a.info.ns a.info.name).2 where
  bound := thinned.bound.remove thinned.sound fun x found => by
    rw [Option.some.inj ((thinned.before _ x found).symm.trans stored)]
    exact other
  sound := thinned.sound.delete ..
  others j ne := (thinned.others j ne).trans (agrees_delete ne ..)
  before key x found := by
    rw [getByKey_delete] at found
    split at found
    · cases found
    · exact thinned.before key x found

/-- The autoscalers of other releases go. -/
theorem Bound.ends_removeOthers (bound : Bound s d r) (sound : s.Sound)
    {scalers : List Autoscaler}
    (stored : ∀ a ∈ scalers, s.getByKey .autoscalers a.key = some a)
    (other : ∀ a ∈ scalers, a.label? Label.release ≠ some r.name) :
    Pass.Ends (scalers.forM Binding.remove) s fun _ s' => Thinned s d r s' := by
  have start : Thinned s d r s := ⟨bound, sound, fun j _ => Agrees.refl j s, fun _ _ found => found⟩
  refine Pass.ends_forM (fun a member t thinned => ?_) start
  exact Pass.ends_write rfl (thinned.remove (stored a member) (other a member))

/-- An autoscaler that is attached is bound again, and stays attached. -/
theorem Bound.rebinds (bound : Bound s d r) : Rebinds s d r.info.name (Bound · d r) := by
  intro s₁ d' xs x sound agrees spec chosen name
  have name' : x.name = r.name := name
  have bound₁ := bound.of_agrees agrees
  unfold Binding.reconcile
  refine Pass.ends_read ?_
  simp only [chosen, name']
  have stored : ∀ a ∈ (s₁.matching .autoscalers (Selector.ofTarget d'.spec.app
      d'.spec.target)).filter fun a => a.label? Label.release != some r.name,
      s₁.getByKey .autoscalers a.key = some a := fun a member =>
    ((mem_ofTarget sound).1 (List.mem_filter.1 member).1).1
  refine (bound₁.ends_removeOthers sound stored fun a member => ?_).bind ?_
  · simpa using (List.mem_filter.1 member).2
  rintro - s₂ ⟨bound₂, sound₂, others₂, -⟩
  obtain ⟨a, member, steers⟩ := bound₂.attached
  have found := ((mem_ofRelease sound₂).1 member).1
  have own : (Binding.autoscalerFor d' x).key = a.key := by
    rw [steers.key]
    show objectKey d'.spec.target (Binding.scalerName d'.spec.app) = _
    rw [spec]
    rfl
  refine (ends_apply_stored sound₂ (own ▸ found)).bind ?_
  rintro ⟨scaler, changed⟩ s₃ ⟨version, replaces⟩
  have label : ((Label.ofTarget d'.spec.app d'.spec.target).insert Label.release x.name).get?
      Label.release = some r.name := by
    rw [Dict.get?_insert_self, name']
  have bound₃ := bound₂.replace sound₂ found (by rfl) replaces
    (fun steers => ⟨steers.key, steers.ns, label, name'⟩) fun label value has same => by
      rw [← steers.key] at same
      obtain ⟨label_eq, value_eq⟩ := eq_of_entry_eq has (name' ▸ same)
      exact ⟨steers.key, label_eq, value_eq.trans name'⟩
  exact Pass.ends_pure ⟨⟨_, rfl⟩, replaces.sound,
    fun j ne => (others₂ j ne).trans (replaces.others j ne), fun _ => bound₃.of_agrees⟩

/-! ### The pass -/

/-- Of the releases that the ramp has moved, the autoscaler is bound to the one of the key. -/
theorem exists_bound {key name : String} {count : Nat} {pairs : List (Release × Release)}
    {xs : List Release} {d' : Descriptor} (scaled : d'.needsAutoscaler = true)
    (moved : ∀ p ∈ pairs, Moved key count p.1 p.2)
    (written : Written pairs xs) (inside : key ∈ pairs.map (·.2.key))
    (named : ∀ p ∈ pairs, p.2.key = key → p.2.info.name = name) :
    ∃ x, Binding.boundRelease? d' xs = some x ∧ x.info.name = name := by
  have no_target : xs.any (·.spec.role = .target) = false := by
    rw [List.any_eq_false]
    intro x member
    obtain ⟨p, there, version, rfl⟩ := written.of_mem x member
    simpa using (moved p there).not_target
  have active : (xs.find? (·.spec.role = .active)).isSome := by
    obtain ⟨p, there, same⟩ := List.mem_map.1 inside
    obtain ⟨x, member, version, stored⟩ := written.exists_mem p there
    rw [List.find?_isSome]
    refine ⟨x, member, decide_eq_true ?_⟩
    rw [stored]
    exact (moved p there).active_iff.2 same
  obtain ⟨x, found⟩ := Option.isSome_iff_exists.1 active
  obtain ⟨p, there, version, same⟩ := written.of_mem x (List.mem_of_find?_eq_some found)
  have here := moved p there
  refine ⟨x, ?_, ?_⟩
  · unfold Binding.boundRelease?
    simp [scaled, no_target, found]
  · have is_active : x.spec.role = .active := by simpa using List.find?_some found
    rw [same] at is_active ⊢
    show p.1.info.name = name
    rw [here.info]
    exact named p there (here.active_iff.1 is_active)

/-- A release still leads after a pass, under the same name and with the planned count, and no
group is touched. -/
structure Turned (s : Store) (r₀ : Release) (count : Nat) (s' : Store) (d' : Descriptor)
    (r' : Release) : Prop where
  sound : s'.Sound
  leading : Leading s' d' r'
  listing : Listing s' d' r'
  unmarked : Unmarked r'
  name : r'.info.name = r₀.info.name
  ns : r'.info.ns = r₀.info.ns
  status : r'.status = r₀.status
  count : r'.spec.numDesired = count
  groups : Agrees .replicaGroups s s'

/-- The ramp's result is carried out. -/
theorem Course.ends_carryOut (course : Course s d r s r) (scaled : d.needsAutoscaler = true)
    {post : Store → Prop} (rebinds : Rebinds s d r.info.name post)
    (standing : Deployment.Standing d d.status s) {rs : List Release} {c now : Nat} {p : Ramp.Plan}
    {status : DescriptorStatus} {result : Ramp.Result} (here : rs[c]? = some r)
    (active : p.active = c) (target : p.target = c) (distinct : (rs.map (·.key)).Nodup)
    (stored : ∀ o ∈ rs, s.getByKey .releases o.key = some o)
    (releases : result.releases = p.spread d.desiredInstances d.readinessTimeout now rs)
    (descriptor : result.descriptor = { d with status }) :
    Pass.Ends (Deployment.carryOut result d.status rs now) s fun _ s' => ∃ scaledAt r',
      Deployment.Standing d { status with lastScaledAt := scaledAt } s' ∧
        Turned s r p.count s' d r' ∧ post s' := by
  unfold Deployment.carryOut
  rw [descriptor, releases]
  let pairs := (p.spread d.desiredInstances d.readinessTimeout now rs).zip rs
  have keys : pairs.map (·.2.key) = rs.map (·.key) :=
    map_key_zip (Nat.le_of_eq Ramp.length_spread.symm)
  have moved : ∀ x ∈ pairs, Moved r.key p.count x.1 x.2 :=
    moved_of_mem_zip here active target distinct
  have known : ∀ x ∈ pairs, s.getByKey .releases x.2.key = some x.2 := fun x member =>
    stored _ (List.of_mem_zip member).2
  have inside : r.key ∈ pairs.map (·.2.key) := by
    rw [keys]
    exact List.mem_map.2 ⟨r, List.mem_of_getElem? here, rfl⟩
  have named : ∀ x ∈ pairs, x.2.key = r.key → x.2.info.name = r.info.name := by
    intro x member same
    have found := known x member
    rw [same, course.leading.found course.sound] at found
    rw [Option.some.inj found]
  refine (Deployment.ends_stamp course.sound standing status).within.bind ?_
  rintro - s₁ ⟨standing₁, others₁, sound₁, -⟩
  have course₁ := course.renew sound₁ others₁ (by decide)
  refine ((Course.lasting s₁ d r r.key p.count).ends_persistAll course₁ rfl moved
    (fun x member => by
      rw [(others₁ .releases (by decide)).getByKey]
      exact known x member) (by rwa [keys])).within.bind ?_
  rintro xs s₂ ⟨r', course₂, key, -, seen, count, written, -⟩
  rw [if_pos inside] at count
  have scaled' : ({ d with status } : Descriptor).needsAutoscaler = true := scaled
  obtain ⟨x, chosen, named_x⟩ := exists_bound scaled' moved written inside named
  have actives : ∀ x ∈ xs, x.key = r'.key → x.spec.role = .active := by
    intro x member same
    obtain ⟨q, there, version, rfl⟩ := written.of_mem x member
    exact (moved q there).active_iff.2 ((moved q there).rework.key.symm.trans (same.trans key))
  refine (course₂.ends_collectGarbage actives now).within.discard.bind ?_
  rintro - s₃ ⟨-, course₃⟩
  have scalers : Agrees .autoscalers s s₃ :=
    (others₁ _ (by decide)).trans (course₃.others _ (by decide))
  refine (rebinds s₃ { d with status } xs x course₃.sound scalers rfl chosen named_x).within.bind ?_
  rintro d₄ s₄ ⟨⟨scaledAt, rfl⟩, sound₄, others₄, holds⟩
  have course₄ := course₃.renew sound₄ others₄ (by decide)
  refine (Deployment.ends_publish sound₄ _ xs).within.discard.bind ?_
  rintro - s₅ ⟨-, -, others₅, sound₅⟩
  have course₅ := course₄.renew sound₅ others₅ (by decide)
  have between (j : Kind) (ne : j ≠ .releases ∧ j ≠ .autoscalers ∧ j ≠ .trafficSplits) :
      Agrees j s₁ s₅ :=
    ((course₃.others j ne.1).trans (others₄ j ne.2.1)).trans (others₅ j ne.2.2)
  have standing₅ := standing₁.of_agrees (between .descriptors (by decide))
  refine (Deployment.ends_report { status with lastScaledAt := scaledAt } sound₅
    standing₅).within.mono ?_
  rintro - s₆ ⟨standing₆, others₆, sound₆⟩
  have course₆ := course₅.renew sound₆ others₆ (by decide)
  have groups : Agrees .replicaGroups s s₆ :=
    ((others₁ _ (by decide)).trans (between _ (by decide))).trans (others₆ _ (by decide))
  have held := holds s₆ ((others₅ _ (by decide)).trans (others₆ _ (by decide)))
  exact ⟨scaledAt, r', standing₆, ⟨sound₆, course₆.leading, course₆.listing, course₆.unmarked,
    course₆.name, course₆.ns, seen, count, groups⟩, held⟩

theorem Scaled.desiredInstances_eq (scaled : Scaled s d r) :
    d.desiredInstances = bounded d.spec.scale d.status.numDesired := by
  unfold Object.desiredInstances bounded
  rw [scaled.latest]

/-- **A pass over a scaled descriptor.**  The release gets the descriptor's count, and the
descriptor takes over the count that the release has seen; no group is touched. -/
theorem Scaled.ends_deployment (scaled : Scaled s d r) (listing : Listing s d r)
    (unmarked : Unmarked r) {post : Store → Prop} (rebinds : Rebinds s d r.info.name post)
    (now : Nat) :
    Pass.Ends (Deployment.run d.key now) s fun _ s' => ∃ d' r',
      s'.getByKey .descriptors d.key = some d' ∧ d'.key = d.key ∧ d'.spec = d.spec ∧
        d'.status.numDesired = r.status.numDesired ∧
        Turned s r d.desiredInstances s' d' r' ∧ post s' := by
  unfold Deployment.run
  refine Pass.ends_read ?_
  simp only [scaled.described]
  unfold Deployment.deploy
  refine (Deployment.ends_configure scaled.sound d).bind ?_
  rintro config s₁ ⟨rfl, others₁, sound₁, -⟩
  have course : Course s d r s r := ⟨scaled.sound, scaled.leading, listing, unmarked, rfl, rfl,
    fun j _ => Agrees.refl j s⟩
  have course₁ := course.renew sound₁ others₁ (by decide)
  have described₁ : s₁.getByKey .descriptors d.key = some d := by
    rw [(others₁ .descriptors (by decide)).getByKey]
    exact scaled.described
  obtain ⟨build, built⟩ := Option.isSome_iff_exists.1 course₁.leading.built
  refine Pass.ends_read ?_
  simp only [built]
  refine Pass.ends_read ?_
  rw [← configOf_of_agrees (others₁ .appConfigs (by decide)) rfl,
    candidates_eq_of_current course₁.leading.listed course₁.leading.current build]
  obtain ⟨c, ahead⟩ := course₁.leading.exists_ahead sound₁
  have accepted := sound₁.accepted _ _ r (course₁.leading.found sound₁)
  obtain ⟨p, status, passed, active, target, count, releases, descriptor, seen⟩ :=
    ahead.pass_eq_ok d now accepted
  simp only [passed]
  have stored : ∀ o ∈ Release.sortNewestFirst (releasesOf s₁ d),
      s₁.getByKey .releases o.key = some o := fun o member =>
    ((mem_ofTarget sound₁).1 ((sortNewestFirst_perm _).mem_iff.1 member)).1
  have rebinds₁ : Rebinds s₁ d r.info.name post := fun s₂ d' xs x sound agrees =>
    rebinds s₂ d' xs x sound ((others₁ _ (by decide)).trans agrees)
  refine (course₁.ends_carryOut scaled.scaled rebinds₁ ⟨d.info.statusVersion, described₁⟩
    ahead.here active target (distinct_sorted sound₁ d) stored releases descriptor).bind ?_
  rintro - s' ⟨scaledAt, r', ⟨version, described⟩, turned, holds⟩
  refine Pass.ends_pure ⟨_, r', described, rfl, rfl, seen, ?_, holds⟩
  exact ⟨turned.sound, turned.leading.restate rfl, turned.listing, turned.unmarked, turned.name,
    turned.ns, turned.status, turned.count.trans count,
    (others₁ .replicaGroups (by decide)).trans turned.groups⟩

/-- A steered store is left steered by it. -/
theorem Steered.ends_deployment (steered : Steered s d r) (unmarked : Unmarked r) (now : Nat) :
    Pass.Ends (Deployment.run d.key now) s fun _ s' => ∃ d' r', Steered s' d' r' ∧ Unmarked r' ∧
      d'.key = d.key ∧ d'.spec = d.spec ∧ r'.key = r.key ∧
      r'.spec.numDesired = d.desiredInstances ∧ r'.status = r.status ∧
      d'.status.numDesired = r.status.numDesired ∧ Agrees .replicaGroups s s' := by
  refine (steered.toScaled.ends_deployment steered.listing unmarked steered.bound.rebinds
    now).mono ?_
  rintro - s' ⟨d', r', described, key, spec, seen, turned, bound⟩
  have bound' := bound.congr spec turned.name turned.ns
  have key' : r'.key = r.key := by
    show objectKey r'.info.ns r'.info.name = _
    rw [turned.ns, turned.name]
    rfl
  have least : 0 < d'.spec.scale.min := by
    rw [spec]
    exact steered.least
  refine ⟨d', r', ⟨⟨turned.sound, key ▸ described, ?_, least, ?_, turned.leading, ?_,
    bound'.attached, ?_⟩, turned.listing, bound'.reserved⟩, turned.unmarked, key, spec, key',
    turned.count, turned.status, seen, turned.groups⟩
  · rw [spec]
    exact steered.latest
  · unfold Object.needsAutoscaler
    rw [spec]
    exact steered.scaled
  · rw [turned.count, steered.desiredInstances_eq]
    have least := steered.least
    unfold bounded
    omega
  · rw [key', groupSize_of_agrees turned.groups]
    exact steered.live

end Cutover.Steering
