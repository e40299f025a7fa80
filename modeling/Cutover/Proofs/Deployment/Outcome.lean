/-
# Cutover.Proofs.Deployment.Outcome -- what a pass stores, whatever the index has

A pass knows the releases of its descriptor from the index (`Feedback.releasesOf`).  Whether
these are all that carry its labels makes no difference to what it does with them: each is
stored as it was listed, so the pass can store it again (`Ramped.ready_lineup`), and only a new
release whose key is taken stops it (`leads_run_filed`, `ends_run_free`).

What follows from a successful pass (`Ran`): the status names the candidate of the ramp
(`Ran.exists_target`), and of the releases that are stored in the end only one that was cut can
be new (`Ran.eq_cut_of_new`), which is not dropped in the same pass (`Ran.exists_new`).
-/
import Cutover.Proofs.Deployment.Agreement

namespace Cutover.Deployment

set_option autoImplicit false

open Pass Store Feedback

variable {s s' s₁ s₂ : Store} {d : Descriptor} {xs : List Release} {now : Nat}
  {result : Ramp.Result} {build : Build}

/-! ## The releases of a pass -/

/-- A listed release is as the descriptor asks: it has its fingerprint and, if the descriptor
has a configuration, the name of its config map. -/
theorem any_isCurrent_iff (s : Store) (d : Descriptor) :
    (releasesOf s d).any (isCurrent d.spec.fingerprint (configOf s d)) = true ↔
      ∃ o ∈ releasesOf s d, o.label? Label.targetHash = some d.spec.fingerprint ∧
        ∀ c ∈ configOf s d, o.spec.config = c.2 := by
  simp [List.any_eq_true, isCurrent, Option.all_eq_true]

theorem none_isCurrent_iff (s : Store) (d : Descriptor) :
    ¬ (releasesOf s d).any (isCurrent d.spec.fingerprint (configOf s d)) = true ↔
      ∀ o ∈ releasesOf s d, ¬ (o.label? Label.targetHash = some d.spec.fingerprint ∧
        ∀ c ∈ configOf s d, o.spec.config = c.2) := by
  rw [any_isCurrent_iff]
  simp

theorem known_of_listed (sound : s.Sound) {o : Release} (listed : o ∈ releasesOf s d) :
    s.getByKey .releases o.key = some o ∧
      (Selector.ofTarget d.spec.app d.spec.target).accepts o.info.labels = true ∧
      o.info.isPersisted = true := by
  obtain ⟨found, -, accepts⟩ :=
    (mem_matching sound (Selector.entries_ofTarget d.spec.app d.spec.target)).1 listed
  exact ⟨found, accepts, sound.accepted _ _ o found⟩

theorem Ramped.ready_lineup (ramped : Ramped d (lineup s d) result) (sound : s.Sound)
    (built : s.get .builds "" d.spec.build = some build) (agrees : Agrees .releases s s₁) :
    ∀ p ∈ result.releases.zip (lineup s d), Ready s₁ d.spec.app d.spec.target p := by
  intro p member
  rcases (mem_lineup built).1 (List.of_mem_zip member).2 with listed | ⟨-, new⟩
  · obtain ⟨found, accepts, persisted⟩ := known_of_listed sound listed
    refine ⟨ramped.rework p member, accepts, fun _ => ?_, fun unseen => ?_⟩
    · rw [agrees.getByKey]
      exact found
    · rw [persisted] at unseen
      cases unseen
  · refine ⟨ramped.rework p member, ?_, ?_, ?_⟩
    · rw [new]
      exact accepts_cut ..
    · rw [new]
      intro seen
      cases seen
    · rw [new]
      exact fun _ => rfl

theorem Ramped.apart_lineup (ramped : Ramped d (lineup s d) result) (sound : s.Sound)
    (built : s.get .builds "" d.spec.build = some build) :
    (result.releases.zip (lineup s d)).Pairwise Apart := by
  have apart : (lineup s d).Pairwise fun o o' =>
      o.info.isPersisted = true → o'.info.isPersisted = true → o.key ≠ o'.key := by
    have listed : (releasesOf s d).Pairwise fun o o' =>
        o.info.isPersisted = true → o'.info.isPersisted = true → o.key ≠ o'.key :=
      (List.pairwise_map.1 (nodup_matching sound (Selector.entries_ofTarget _ _))).imp
        fun ne _ _ => ne
    rw [lineup_eq built]
    refine ((List.mergeSort_perm ..).pairwise_iff ?_).2 (List.pairwise_append.2 ⟨listed, ?_, ?_⟩)
    · intro o o' apart old old' same
      exact apart old' old same.symm
    · split
      · exact .nil
      · exact List.pairwise_singleton ..
    · intro o _ o' last _ old
      split at last
      · cases last
      · rw [List.mem_singleton.1 last] at old
        cases old
  rw [← ramped.map_snd_zip, List.pairwise_map] at apart
  exact apart

/-- If the key of a new release is free, the keys tell the releases of a pass apart. -/
theorem nodup_lineup (sound : s.Sound) (built : s.get .builds "" d.spec.build = some build)
    (free : s.getByKey .releases (cutFor s d build).key = none) :
    ((lineup s d).map (·.key)).Nodup := by
  have listed : ((releasesOf s d).map (·.key)).Nodup :=
    nodup_matching sound (Selector.entries_ofTarget _ _)
  rw [lineup_eq built]
  refine ((List.mergeSort_perm ..).map _).nodup_iff.2 ?_
  split
  · rwa [List.append_nil]
  · rw [List.map_append]
    refine List.nodup_append.2 ⟨listed, List.nodup_singleton _, ?_⟩
    rintro key member _ last rfl
    obtain ⟨o, inside, rfl⟩ := List.mem_map.1 member
    have found := (known_of_listed sound inside).1
    rw [List.mem_singleton.1 last, free] at found
    cases found

/-! ## The whole pass -/

/-- What a pass that succeeds has done, from one store to the other: the ramp over the lineup,
stored release by release, and what follows. -/
structure Ran (s : Store) (d : Descriptor) (now : Nat) (s' : Store) (build : Build)
    (result : Ramp.Result) (s₁ : Store) (xs : List Release) (s₂ : Store) : Prop where
  built : s.get .builds "" d.spec.build = some build
  passed : Ramp.pass d (lineup s d) now = .ok result
  ramped : Ramped d (lineup s d) result
  untouched : ∀ j, j ≠ .configMaps → j ≠ .descriptors → Agrees j s s₁
  sound : s₁.Sound
  filed : Filed d.spec.app d.spec.target (result.releases.zip (lineup s d)) xs s₁ s₂
  followed : Followed d result now xs s₂ s'

/-- **A pass over a descriptor, whatever the index has.**  It stores its lineup as the ramp left
it, if the build is there and, where a release has to be cut, the key of that is free. -/
theorem leads_run_filed (sound : s.Sound) {key : String}
    (described : s.getByKey .descriptors key = some d) (now : Nat) :
    Leads (run key now) s
      (fun _ s' => ∃ build result s₁ xs s₂, Ran s d now s' build result s₁ xs s₂)
      fun _ _ => s.get .builds "" d.spec.build = none ∨
        ∃ build, s.get .builds "" d.spec.build = some build ∧
          ¬ (releasesOf s d).any (isCurrent d.spec.fingerprint (configOf s d)) = true ∧
          s.getByKey .releases (cutFor s d build).key ≠ none := by
  obtain rfl := sound.keyed _ _ d described
  unfold run
  refine leads_read ?_
  simp only [described]
  rw [deploy_eq]
  refine leads_deployBy_built sound described (fun missing _ _ => .inl missing) ?_
  intro build result s₁ built passed ramped sound₁ _ others₁ standing
  refine (leads_carryOutBy (fun xs s₂ => ∃ s₁,
    (∀ j, j ≠ .configMaps → j ≠ .descriptors → Agrees j s s₁) ∧ s₁.Sound ∧
    Filed d.spec.app d.spec.target (result.releases.zip (lineup s d)) xs s₁ s₂) sound₁ standing
    ramped ?_).mono ?_ fun _ _ stopped => stopped
  · intro s₂ others sound₂ _ _
    have agrees : ∀ j, j ≠ .configMaps → j ≠ .descriptors → Agrees j s s₂ :=
      fun j ne ne' => (others₁ j ne).trans (others j ne')
    have releases := agrees .releases (by decide) (by decide)
    refine (leads_persistAll_taken sound₂ (ramped.ready_lineup sound built releases)
      (ramped.apart_lineup sound built)).mono ?_ ?_
    · intro xs s₃ filed
      exact ⟨⟨s₂, agrees, sound₂, filed⟩, filed.others _ (by decide), filed.sound⟩
    · rintro e s₃ ⟨-, p, member, new, taken⟩
      rcases (mem_lineup built).1 (List.of_mem_zip member).2 with listed | ⟨none_, cut⟩
      · rw [(known_of_listed sound listed).2.2] at new
        cases new
      · refine .inr ⟨build, built, none_, fun free => ?_⟩
        have keys : (result.releases.zip (lineup s d)).map (·.2.key) =
            (lineup s d).map (·.key) := by
          rw [← congrArg (List.map (·.key)) ramped.map_snd_zip, List.map_map]
          rfl
        rw [releases.getByKey, cut, free, keys] at taken
        -- With a free key there are no two releases of one key either.
        exact taken.resolve_left nofun (nodup_lineup sound built free)
  · rintro - s' ⟨xs, s₂, ⟨s₁, agrees, sound₁, filed⟩, followed⟩ action
    exact ⟨build, result, s₁, xs, s₂, built, passed, ramped, agrees, sound₁, filed, followed⟩

/-- With its build and a current release a pass succeeds. -/
theorem ends_run_filed (sound : s.Sound) {key : String}
    (described : s.getByKey .descriptors key = some d)
    (built : s.get .builds "" d.spec.build = some build)
    (current : (releasesOf s d).any (isCurrent d.spec.fingerprint (configOf s d)) = true)
    (now : Nat) :
    Ends (run key now) s fun _ s' =>
      ∃ build result s₁ xs s₂, Ran s d now s' build result s₁ xs s₂ := by
  refine (leads_run_filed sound described now).ends ?_
  rintro e s' (missing | ⟨-, -, none_, -⟩)
  · rw [built] at missing
    cases missing
  · exact none_ current

/-- With its build and a free key for a new release a pass succeeds. -/
theorem ends_run_free (sound : s.Sound) {key : String}
    (described : s.getByKey .descriptors key = some d)
    (built : s.get .builds "" d.spec.build = some build)
    (free : s.getByKey .releases (cutFor s d build).key = none) (now : Nat) :
    Ends (run key now) s fun _ s' =>
      ∃ build result s₁ xs s₂, Ran s d now s' build result s₁ xs s₂ := by
  refine (leads_run_filed sound described now).ends ?_
  rintro e s' (missing | ⟨build', built', -, taken⟩)
  · rw [built] at missing
    cases missing
  · cases built.symm.trans built'
    exact taken free

/-! ## The target that is reported -/

/-- After a pass that is not held the status names the candidate of the ramp. -/
theorem Ran.exists_target (ran : Ran s d now s' build result s₁ xs s₂)
    (free : Ramp.hold? d (lineup s d) now = none) {c : Nat} {r : Release}
    (first : Release.firstDeployable (lineup s d) = some c) (at_ : (lineup s d)[c]? = some r) :
    ∃ d', s'.getByKey .descriptors d.key = some d' ∧ d'.status.targetRelease = r.name := by
  have moves : Ramp.Moves d (lineup s d) now := ⟨free, by simp [first]⟩
  obtain ⟨p, planned, passed⟩ := moves.exists_plan
  have sound := Ramp.planOf?_sound planned
  obtain ⟨c', r', found, at', -, made⟩ := Ramp.planOf?_made planned
  obtain rfl : c = c' := Option.some.inj (first.symm.trans found)
  cases ran.passed.symm.trans passed
  obtain ⟨scaledAt, version, described⟩ := ran.followed.described
  refine ⟨_, described, (Ramp.targetRelease_carryOut p).trans ?_⟩
  rw [Ramp.releases_carryOut sound, made.target_eq, Ramp.spread_getElem?, at_]
  show (p.mark c (p.assign _ _ now c r)).name = r.name
  simp [Ramp.Plan.mark, Object.name]

/-! ## The release that is new -/

/-- What is stored in the end has been stored by the pass, or was stored before. -/
theorem Ran.mem_stored (ran : Ran s d now s' build result s₁ xs s₂) {r : Release} (member : r ∈ stored s' d) :
    (∃ p ∈ result.releases.zip (lineup s d), Held p.1 r) ∨
      s.getByKey .releases r.key = some r := by
  have inside : r ∈ stored s₂ d := (List.mem_filter.1 (ran.followed.kept.mem_iff.1 member)).1
  rcases List.mem_append.1 (ran.filed.found.mem_iff.1 inside) with written | left
  · left
    obtain ⟨i, at_⟩ := List.getElem?_of_mem written
    obtain ⟨lt, rfl⟩ := List.getElem?_eq_some_iff.1 at_
    have held := List.forall₂_iff_get.1 ran.filed.held
    have lt' := held.1 ▸ lt
    exact ⟨_, List.getElem_mem lt', held.2 i lt' lt⟩
  · right
    have found := ((mem_scan ran.sound).1 (List.mem_filter.1 left).1).1
    rwa [(ran.untouched _ (by decide) (by decide)).getByKey] at found

/-- A release whose key was free is the one that was cut, reworked and stored. -/
theorem Ran.eq_cut_of_new (ran : Ran s d now s' build result s₁ xs s₂) (sound : s.Sound)
    {r : Release} (member : r ∈ stored s' d)
    (free : s.getByKey .releases r.key = none) :
    ¬ (releasesOf s d).any (isCurrent d.spec.fingerprint (configOf s d)) = true ∧
      ∃ n, Rework n (cutFor s d build) ∧ Held n r := by
  rcases ran.mem_stored member with ⟨p, inside, held⟩ | known
  · have rework := ran.ramped.rework p inside
    rcases (mem_lineup ran.built).1 (List.of_mem_zip inside).2 with listed | ⟨none_, new⟩
    · have found := (known_of_listed sound listed).1
      rw [← rework.key, ← held.key, free] at found
      cases found
    · exact ⟨none_, p.1, new ▸ rework, held⟩
  · rw [free] at known
    cases known

/-- A release that was cut comes first. -/
theorem head_lineup (sound : s.Sound) (built : s.get .builds "" d.spec.build = some build)
    (none_ : ¬ (releasesOf s d).any (isCurrent d.spec.fingerprint (configOf s d)) = true) :
    (lineup s d)[0]? = some (cutFor s d build) := by
  rw [lineup_eq built, if_neg none_]
  refine Release.head_sortNewestFirst (List.mem_append_right _ (List.mem_singleton.2 rfl)) ?_
  intro o member ne
  have listed : o ∈ releasesOf s d := by
    rcases List.mem_append.1 member with listed | last
    · exact listed
    · exact absurd (List.mem_singleton.1 last) ne
  have unseen : (cutFor s d build).info.isPersisted = false := rfl
  have apart : compare (0 : Nat) 1 = .lt := rfl
  simp [Release.recency, unseen, (known_of_listed sound listed).2.2, apart]

/-- The first of the releases is none of those that are dropped. -/
theorem not_expired_of_head {x : Release} (distinct : (xs.map (·.key)).Nodup)
    (first : xs[0]? = some x) : x.key ∉ (Release.expired xs now).map (·.key) := by
  intro member
  obtain ⟨e, expired, same⟩ := List.mem_map.1 member
  obtain ⟨j, at_⟩ := List.getElem?_of_mem (List.mem_filter.1 expired).1
  rw [List.getElem?_drop] at at_
  obtain ⟨lt, -⟩ := List.getElem?_eq_some_iff.1 at_
  refine List.nodup_iff_getElem?_ne_getElem?.1 distinct 0 (Release.kept + j) ?_ ?_ ?_
  · exact Nat.lt_of_lt_of_le (by decide) (Nat.le_add_right _ _)
  · rwa [List.length_map]
  · rw [List.getElem?_map, List.getElem?_map, first, at_]
    exact congrArg some same.symm

/-- A release that was cut is stored in the end, under a key that was free. -/
theorem Ran.exists_new (ran : Ran s d now s' build result s₁ xs s₂) (sound : s.Sound)
    (none_ : ¬ (releasesOf s d).any (isCurrent d.spec.fingerprint (configOf s d)) = true) :
    ∃ r ∈ stored s' d, s.getByKey .releases r.key = none := by
  have head := head_lineup sound ran.built none_
  have lt : 0 < result.releases.length := by
    rw [ran.ramped.length]
    exact (List.getElem?_eq_some_iff.1 head).1
  have zipped : (result.releases[0], cutFor s d build) ∈ result.releases.zip (lineup s d) :=
    List.mem_of_getElem? (List.getElem?_zip_eq_some.2 ⟨List.getElem?_eq_getElem lt, head⟩)
  obtain ⟨x, first, held⟩ :=
    exists_held (ran.ramped.held ran.filed.held) (List.getElem?_eq_getElem lt)
  have key : x.key = (cutFor s d build).key := held.key.trans (ran.ramped.rework _ zipped).key
  have distinct : (xs.map (·.key)).Nodup := by
    have all := ((ran.filed.found.map (·.key)).nodup_iff).1 (nodup_scan ran.filed.sound)
    rw [List.map_append] at all
    exact (List.sublist_append_left ..).nodup all
  refine ⟨x, ran.followed.kept.mem_iff.2 (List.mem_filter.2 ⟨?_, ?_⟩), ?_⟩
  · exact ran.filed.found.mem_iff.2 (List.mem_append_left _ (List.mem_of_getElem? first))
  · simpa using not_expired_of_head distinct first
  · have free := ran.filed.free _ zipped rfl
    rw [key, ← (ran.untouched _ (by decide) (by decide)).getByKey]
    exact free

/-! ## Stores with given releases -/

namespace Sample

open Cutover.Sample

/-- The store with a build, a descriptor and some releases of it. -/
def holding (rs : List Release) : Store := rs.foldl (fun s r => s.commit r ∅ .created) base

theorem holding_concat (rs : List Release) (r : Release) :
    holding (rs ++ [r]) = (holding rs).commit r ∅ .created := List.foldl_append

/-- Stored releases of the descriptor, under keys of their own. -/
structure Distinct (rs : List Release) : Prop where
  accepted : ∀ r ∈ rs, r.info.isPersisted = true
  labelled : ∀ r ∈ rs, (Selector.ofTarget "web" "prod").accepts r.info.labels = true
  keys : (rs.map (·.key)).Nodup

variable {rs : List Release}

theorem agrees_holding {k : Kind} (ne : k ≠ .releases) (rs : List Release) :
    Agrees k base (holding rs) := by
  induction rs using List.reverseRec with
  | nil => exact Agrees.refl k base
  | append_singleton rs r ih =>
      rw [holding_concat]
      exact ih.trans (agrees_commit ne _ _ _ _)

theorem indexed_holding (rs : List Release) : (holding rs).Indexed := by
  induction rs using List.reverseRec with
  | nil => exact (((indexed_empty 100).commit_new _ _).commit_new _ _)
  | append_singleton rs r ih =>
      rw [holding_concat]
      exact ih.commit_new _ _

/-- The releases can be told apart, and a scan finds them all. -/
theorem Distinct.scanned (distinct : Distinct rs) :
    (holding rs).Sound ∧ ((holding rs).scan .releases (Selector.ofTarget "web" "prod")).Perm rs := by
  induction rs using List.reverseRec with
  | nil =>
      refine ⟨sound_base, List.Perm.of_eq ?_⟩
      show base.scan .releases (Selector.ofTarget "web" "prod") = []
      rw [base, (agrees_commit (by decide) _ _ _ _).scan, (agrees_commit (by decide) _ _ _ _).scan,
        scan_empty]
  | append_singleton rs r ih =>
      obtain ⟨accepted, labelled, keys⟩ := distinct
      rw [List.map_append, List.nodup_append] at keys
      obtain ⟨sound, found⟩ := ih ⟨fun o m => accepted o (List.mem_append_left _ m),
        fun o m => labelled o (List.mem_append_left _ m), keys.1⟩
      have last : r ∈ rs ++ [r] := List.mem_append_right _ (List.mem_singleton.2 rfl)
      have puts := puts_commit sound (accepted r last) ∅ .created
      rw [holding_concat]
      refine ⟨sound.commit (accepted r last) _ _, (puts.scan sound (labelled r last)).trans ?_⟩
      have kept : without [r.key] rs = rs := by
        refine List.filter_eq_self.2 fun o member => ?_
        have ne := keys.2.2 _ (List.mem_map_of_mem member) r.key (by simp)
        simpa using ne
      have others := found.filter (·.key ∉ [r.key])
      rw [show rs.filter (·.key ∉ [r.key]) = rs from kept] at others
      exact (others.cons r).trans (List.perm_append_singleton r rs).symm

theorem Distinct.releasesOf (distinct : Distinct rs) :
    (releasesOf (holding rs) described).Perm rs := by
  obtain ⟨sound, scanned⟩ := distinct.scanned
  exact (matching_perm_scan sound (indexed_holding rs) .releases "web" "prod").trans scanned

theorem described_holding (rs : List Release) :
    (holding rs).getByKey .descriptors "web-prod" = some described := by
  rw [(agrees_holding (by decide) rs).getByKey]
  exact getByKey_commit_self ..

theorem built_holding (rs : List Release) :
    (holding rs).get .builds "" described.spec.build = some Sample.build := by
  rw [(agrees_holding (by decide) rs).get]
  show ((Store.commit _ described ∅ .created).getByKey .builds "web-v1") = some Sample.build
  rw [(agrees_commit (by decide) _ _ _ _).getByKey]
  exact getByKey_commit_self ..

theorem configOf_holding (rs : List Release) : configOf (holding rs) described = none := by
  rw [configOf_of_agrees ((agrees_holding (by decide) rs)) rfl, ← configOf_store]
  exact (configOf_of_agrees (agrees_base (by decide)) rfl).symm

/-- The labels of a release that was cut from the descriptor. -/
def cutLabels : Dict String :=
  (Label.ofTarget "web" "prod").insert Label.targetHash described.spec.fingerprint

theorem accepts_cutLabels : (Selector.ofTarget "web" "prod").accepts cutLabels = true :=
  accepts_insert _ _ (by decide) (by decide) (accepts_ofTarget_self "web" "prod")

theorem get?_cutLabels :
    cutLabels.get? Label.targetHash = some described.spec.fingerprint :=
  Dict.get?_insert_self ..

/-- With a release of these labels among the stored ones none has to be cut. -/
theorem Distinct.current (distinct : Distinct rs) {r : Release} (member : r ∈ rs)
    (labels : r.info.labels = cutLabels) : (Feedback.releasesOf (holding rs) described).any
      (isCurrent described.spec.fingerprint (configOf (holding rs) described)) = true := by
  rw [any_isCurrent_iff, configOf_holding]
  refine ⟨r, distinct.releasesOf.mem_iff.2 member, ?_, by simp⟩
  rw [Object.label?, labels]
  exact get?_cutLabels

end Sample

end Cutover.Deployment
