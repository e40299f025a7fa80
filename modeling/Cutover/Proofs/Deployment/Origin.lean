/-
# Cutover.Proofs.Deployment.Origin -- what a pass keeps of the releases

A release is written whole, from a list that was read before.  What the ramp reworks in the list is
the role, the traffic, the wanted count and one label (`Rework`), and a write that is accepted has
the version that was read, so it comes in place of just that release (`leaves_persist`): what it was
cut from and its status stay (`Revised`).

A pass stores the releases first and deletes old ones after that (`Renewed`).  A release that is
stored before a pass and after it has therefore been there all the time, and one that is new has
not been written since it was created.  Both hold as well when the pass fails on its way.
-/
import Cutover.Proofs.Deployment.Course
import Cutover.Proofs.Store.Edits

namespace Cutover

set_option autoImplicit false

open Pass Store

/-! ## One release at two times -/

namespace Release

/-- Two states of one release, which say of what and for whom it was cut. -/
structure SameOrigin (o o' : Release) : Prop extends SameBirth o o' where
  owner : o'.info.owner = o.info.owner
  app : o'.spec.app = o.spec.app
  target : o'.spec.target = o.spec.target
  build : o'.spec.build = o.spec.build
  config : o'.spec.config = o.spec.config
  runtime : o'.spec.runtime = o.spec.runtime
  labels : ∀ label, label ≠ Label.promotionTarget → o'.label? label = o.label? label

variable {o o' o'' n : Release}

theorem SameOrigin.refl (o : Release) : SameOrigin o o :=
  ⟨SameBirth.refl o, rfl, rfl, rfl, rfl, rfl, rfl, fun _ _ => rfl⟩

theorem SameOrigin.trans (first : SameOrigin o o') (second : SameOrigin o' o'') :
    SameOrigin o o'' where
  toSameBirth := first.toSameBirth.trans second.toSameBirth
  owner := second.owner.trans first.owner
  app := second.app.trans first.app
  target := second.target.trans first.target
  build := second.build.trans first.build
  config := second.config.trans first.config
  runtime := second.runtime.trans first.runtime
  labels label ne := (second.labels label ne).trans (first.labels label ne)

/-- What has another status only is the same release. -/
theorem SameOrigin.of_same_spec (same : Half.spec.Same o o') : SameOrigin o o' := by
  have status : Half.status.graft o o' = o' := same
  rw [← status]
  exact ⟨⟨rfl, rfl, rfl⟩, rfl, rfl, rfl, rfl, rfl, rfl, fun _ _ => rfl⟩

theorem SameOrigin.of_rework (rework : Deployment.Rework n o) : SameOrigin o n where
  ns := by rw [rework.info]
  name := by
    unfold Object.name
    rw [rework.info]
  createdAt := by rw [rework.info]
  owner := by rw [rework.info]
  app := by rw [rework.spec]
  target := by rw [rework.spec]
  build := by rw [rework.spec]
  config := by rw [rework.spec]
  runtime := by rw [rework.spec]
  labels := rework.labels

/-- What a pass over a descriptor may make of a stored release: its origin and its status are kept,
and a write of it raises the version of its spec. -/
structure Revised (o o' : Release) : Prop where
  origin : SameOrigin o o'
  status : Half.status.Same o o'
  version : o' = o ∨ o.info.specVersion < o'.info.specVersion

theorem Revised.refl (o : Release) : Revised o o :=
  ⟨SameOrigin.refl o, Half.Same.refl _ o, .inl rfl⟩

theorem revised_respecified (rework : Deployment.Rework n o) :
    Revised o (Store.respecified o n) := by
  have origin := SameOrigin.of_rework rework
  refine ⟨?_, rfl, .inr (Nat.lt_succ_self _)⟩
  rw [rework.respecified]
  exact ⟨⟨origin.ns, origin.name, origin.createdAt⟩, origin.owner, origin.app, origin.target,
    origin.build, origin.config, origin.runtime, origin.labels⟩

/-- The release is as it was created. -/
def Unwritten (o : Release) : Prop := ∀ h : Half, h.version o.info = 1

end Release

/-! ## Stores -/

namespace Deployment

open Release

variable {s s' s'' t : Store} {d : Descriptor} {n o o' : Release} {key : String}

/-- Every release that was stored still is, as a pass may have revised it, and those that are new
have been created only. -/
structure Grown (s t : Store) : Prop where
  kept : ∀ key o, s.getByKey .releases key = some o →
    ∃ o', t.getByKey .releases key = some o' ∧ Revised o o'
  new : ∀ key o', s.getByKey .releases key = none → t.getByKey .releases key = some o' →
    Unwritten o'

/-- Every release that is stored was stored before as it is. -/
def Pruned (t s' : Store) : Prop :=
  ∀ key o, s'.getByKey .releases key = some o → t.getByKey .releases key = some o

/-- Releases have been revised or created, and then some have been deleted. -/
def Renewed (s s' : Store) : Prop := ∃ t, Grown s t ∧ Pruned t s'

theorem grown_of_agrees (agrees : Agrees .releases s t) : Grown s t := by
  constructor
  · intro key o found
    exact ⟨o, (agrees.getByKey key).trans found, Revised.refl o⟩
  · intro key o' free found
    rw [agrees.getByKey, free] at found
    cases found

theorem Grown.of_agrees (grown : Grown s t) (agrees : Agrees .releases t s') : Grown s s' := by
  constructor
  · intro key o found
    rw [agrees.getByKey]
    exact grown.kept key o found
  · intro key o' free found
    rw [agrees.getByKey] at found
    exact grown.new key o' free found

theorem pruned_of_agrees (agrees : Agrees .releases t s') : Pruned t s' := by
  intro key o found
  rwa [agrees.getByKey] at found

theorem Pruned.trans (first : Pruned t s') (second : Pruned s' s'') : Pruned t s'' :=
  fun key o found => first key o (second key o found)

theorem Grown.renewed (grown : Grown s t) : Renewed s t := ⟨t, grown, fun _ _ found => found⟩

theorem Renewed.pruned (renewed : Renewed s s') (pruned : Pruned s' s'') : Renewed s s'' := by
  obtain ⟨t, grown, before⟩ := renewed
  exact ⟨t, grown, before.trans pruned⟩

/-- What agrees with the start of a pass may be taken for it. -/
theorem Renewed.of_agrees (agrees : Agrees .releases s t) (renewed : Renewed t s') :
    Renewed s s' := by
  obtain ⟨u, grown, pruned⟩ := renewed
  refine ⟨u, ⟨?_, ?_⟩, pruned⟩
  · intro key o found
    exact grown.kept key o ((agrees.getByKey key).trans found)
  · intro key o' free found
    exact grown.new key o' ((agrees.getByKey key).trans free) found

/-- A release that is there before and after has been revised at most. -/
theorem Renewed.revised (renewed : Renewed s s') (was : s.getByKey .releases key = some o)
    (is_ : s'.getByKey .releases key = some o') : Revised o o' := by
  obtain ⟨t, grown, pruned⟩ := renewed
  obtain ⟨x, there, revised⟩ := grown.kept key o was
  rwa [Option.some.inj (there.symm.trans (pruned key o' is_))] at revised

theorem Renewed.unwritten (renewed : Renewed s s') (free : s.getByKey .releases key = none)
    (is_ : s'.getByKey .releases key = some o') : Unwritten o' := by
  obtain ⟨t, grown, pruned⟩ := renewed
  exact grown.new key o' free (pruned key o' is_)

/-! ## Storing the releases -/

/-- A pass has come to a sound store, and has deleted nothing so far. -/
structure Underway (s t : Store) : Prop where
  grown : Grown s t
  sound : t.Sound

theorem Underway.refl (sound : s.Sound) : Underway s s :=
  ⟨grown_of_agrees (Agrees.refl _ s), sound⟩

theorem Underway.renewed (underway : Underway s t) : Renewed s t := underway.grown.renewed

theorem Underway.of_agrees (underway : Underway s t) (agrees : Agrees .releases t s')
    (sound : s'.Sound) : Underway s s' := ⟨underway.grown.of_agrees agrees, sound⟩

/-- A release comes under a free key. -/
theorem Underway.created (underway : Underway s t) (free : t.getByKey .releases n.key = none) :
    Underway s (t.commit (t.accepted n) ∅ .created) := by
  have here : (t.accepted n).key = n.key := rfl
  refine ⟨⟨?_, ?_⟩, underway.sound.commit rfl _ _⟩
  · intro key o was
    obtain ⟨o', there, revised⟩ := underway.grown.kept key o was
    have ne : key ≠ (t.accepted n).key := by
      rintro rfl
      rw [here, free] at there
      cases there
    exact ⟨o', (getByKey_commit_of_ne t _ _ _ ne).trans there, revised⟩
  · intro key o' before found
    by_cases same : key = (t.accepted n).key
    · rw [same, getByKey_commit_self] at found
      rw [← Option.some.inj found]
      intro h
      cases h <;> rfl
    · rw [getByKey_commit_of_ne t _ _ _ same] at found
      exact underway.grown.new key o' before found

/-- A stored release is written with what the ramp has made of it, if its version is still the one
that was read. -/
theorem Underway.respecified (underway : Underway s t) (rework : Rework n o)
    (known : s.getByKey .releases o.key = some o) {current : Release}
    (found : t.getByKey .releases n.key = some current)
    (seen : current.info.specVersion = n.info.specVersion) :
    Underway s (t.commit (Store.respecified current n) current.info.labels .specUpdated) := by
  -- a revised release has a higher version, so the one that is there is the one that was read
  obtain rfl : current = o := by
    obtain ⟨x, there, revised⟩ := underway.grown.kept o.key o known
    rw [← rework.key, found] at there
    rw [← Option.some.inj there] at revised
    rcases revised.version with same | later
    · exact same
    · rw [seen, rework.specVersion] at later
      exact absurd later (Nat.lt_irrefl _)
  have here : (Store.respecified current n).key = current.key := rfl
  refine ⟨⟨?_, ?_⟩, underway.sound.commit (decide_eq_true (Nat.succ_pos _)) _ _⟩
  · intro key o was
    by_cases same : key = current.key
    · subst same
      obtain rfl : current = o := Option.some.inj (known.symm.trans was)
      exact ⟨_, getByKey_commit_self .., revised_respecified rework⟩
    · obtain ⟨o', there, revised⟩ := underway.grown.kept key o was
      exact ⟨o', (getByKey_commit_of_ne t _ _ _ (here ▸ same)).trans there, revised⟩
  · intro key o' before found
    have ne : key ≠ current.key := by
      rintro rfl
      rw [known] at before
      cases before
    rw [getByKey_commit_of_ne t _ _ _ (here ▸ ne)] at found
    exact underway.grown.new key o' before found

/-- **One release is stored** as the ramp left it, or not at all. -/
theorem leaves_persist (underway : Underway s t) (rework : Rework n o)
    (known : o.info.isPersisted = true → s.getByKey .releases o.key = some o) :
    (persist n o).Leaves t (Underway s) := by
  unfold persist
  split
  · refine leaves_write underway fun x s' done => ?_
    obtain ⟨free, -, rfl⟩ := eq_of_create done
    exact underway.created free
  · rename_i old
    have persisted : o.info.isPersisted = true := by
      rw [← rework.isPersisted]
      simpa using old
    split
    · refine leaves_write underway fun x s' done => ?_
      obtain ⟨current, found, seen, -, rfl⟩ := eq_of_updateSpec done
      exact underway.respecified rework (known persisted) found seen
    · exact leaves_pure underway n

theorem leaves_persistAll {pairs : List (Release × Release)} (underway : Underway s t)
    (rework : ∀ p ∈ pairs, Rework p.1 p.2)
    (known : ∀ p ∈ pairs, p.2.info.isPersisted = true →
      s.getByKey .releases p.2.key = some p.2) :
    (persistAll pairs).Leaves t (Underway s) :=
  leaves_mapM (fun p inside _ underway => leaves_persist underway (rework p inside) (known p inside))
    underway

/-! ## What else a pass writes -/

theorem ends_modify_foreign {k : Kind} (sound : s.Sound) (foreign : Kind.releases ≠ k)
    (ns name : String) (f : Object k → k.Status) :
    Ends (modifyStatus k ns name f) s fun _ s' => Agrees .releases s s' ∧ s'.Sound := by
  refine (ends_modifyStatus_any sound ns name f).mono ?_
  rintro - s' (rfl | ⟨o, version, -, replaces⟩)
  · exact ⟨Agrees.refl _ _, sound⟩
  · exact ⟨replaces.others _ foreign, replaces.sound⟩

theorem leaves_stamp (underway : Underway s t) (d : Descriptor) (observed : DescriptorStatus) :
    (stamp d observed).Leaves t (Underway s) := by
  unfold stamp
  split
  · refine (ends_modify_foreign underway.sound (by decide) ..).discard.leaves ?_
    rintro - s' ⟨-, agrees, sound⟩
    exact underway.of_agrees agrees sound
  · exact leaves_pure underway ()

theorem ends_report_any (sound : s.Sound) (d : Descriptor) (observed : DescriptorStatus) :
    Ends (report d observed) s fun _ s' => Agrees .releases s s' := by
  unfold report
  split
  · refine (ends_modify_foreign sound (by decide) ..).discard.mono ?_
    rintro - s' ⟨-, agrees, -⟩
    exact agrees
  · exact ends_pure (Agrees.refl _ s)

/-- Once the releases are stored they are deleted at most. -/
theorem ends_follow_any (sound : s.Sound) (result : Ramp.Result) (observed : DescriptorStatus)
    (now : Nat) (rs : List Release) :
    Ends (follow result observed now rs) s fun _ s' => Pruned s s' := by
  unfold follow
  refine (ends_collectGarbage sound rs now Selector.any).within.discard.bind ?_
  rintro - s₁ ⟨-, -, there, -, sound₁⟩
  refine (ends_reconcile sound₁ result.descriptor rs).within.bind ?_
  rintro d s₂ ⟨-, others₂, sound₂⟩
  refine (ends_publish sound₂ d rs).within.discard.bind ?_
  rintro - s₃ ⟨-, -, others₃, sound₃⟩
  refine (ends_report_any sound₃ d observed).within.mono ?_
  intro _ s' agrees
  have pruned : Pruned s s₁ := by
    intro key o found
    rw [there] at found
    split at found
    · cases found
    · exact found
  have rest := ((others₂ _ (by decide)).trans (others₃ _ (by decide))).trans agrees
  exact pruned.trans (pruned_of_agrees rest)

theorem leaves_carryOut {result : Ramp.Result} {before : List Release} (sound : s.Sound)
    (rework : ∀ p ∈ result.releases.zip before, Rework p.1 p.2)
    (known : ∀ p ∈ result.releases.zip before, p.2.info.isPersisted = true →
      s.getByKey .releases p.2.key = some p.2) (observed : DescriptorStatus) (now : Nat) :
    (carryOut result observed before now).Leaves s (Renewed s) := by
  have weaker : ∀ t, Underway s t → Renewed s t := fun _ underway => underway.renewed
  show (carryOutBy persistAll result observed before now).Leaves s (Renewed s)
  unfold carryOutBy
  have stamped := leaves_stamp (Underway.refl sound) result.descriptor observed
  refine (stamped.within _).bind weaker fun _ s₁ underway₁ => ?_
  refine ((leaves_persistAll underway₁ rework known).within _).bind weaker ?_
  intro rs s₂ underway₂
  exact (ends_follow_any underway₂.sound ..).leaves fun _ s' pruned =>
    underway₂.renewed.pruned pruned

/-! ## The whole pass -/

/-- Of the releases that a pass starts from those that are not new are stored. -/
theorem known_of_mem_candidates (sound : s.Sound) {build : Build}
    {config : Option (Configuration × String)} (member : o ∈ candidates s d build config)
    (old : o.info.isPersisted = true) : s.getByKey .releases o.key = some o := by
  have known (listed : o ∈ s.matching .releases (Selector.ofTarget d.spec.app d.spec.target)) :
      s.getByKey .releases o.key = some o := ((mem_ofTarget sound).1 listed).1
  unfold candidates at member
  simp only [Release.sortNewestFirst, List.mem_mergeSort] at member
  split at member
  · exact known member
  · rw [List.mem_append, List.mem_singleton] at member
    rcases member with listed | rfl
    · exact known listed
    · cases old

theorem leaves_deploy (sound : s.Sound) (d : Descriptor) (now : Nat) :
    (deploy d now).Leaves s (Renewed s) := by
  unfold deploy
  have configured : (configure d).Leaves s (fun s' => Agrees .releases s s' ∧ s'.Sound) :=
    (ends_configure sound d).leaves fun _ _ holds => ⟨holds.2.1 _ (by decide), holds.2.2.1⟩
  refine configured.bind (fun _ holds => (grown_of_agrees holds.1).renewed) ?_
  rintro config s₁ ⟨agrees, sound₁⟩
  apply Leaves.mono _ fun s' (renewed : Renewed s₁ s') => renewed.of_agrees agrees
  have unchanged : Renewed s₁ s₁ := (Underway.refl sound₁).renewed
  refine leads_read ?_
  cases s₁.get .builds "" d.spec.build with
  | none => exact leaves_throw unchanged _
  | some build =>
      refine leads_read ?_
      simp only
      cases passed : Ramp.pass d (candidates s₁ d build config) now with
      | error e => exact leaves_throw unchanged e
      | ok result =>
          have known : ∀ p ∈ result.releases.zip (candidates s₁ d build config),
              p.2.info.isPersisted = true → s₁.getByKey .releases p.2.key = some p.2 :=
            fun p inside => known_of_mem_candidates sound₁ (List.of_mem_zip inside).2
          have rework := (ramped_of_pass passed).rework
          have carried := leaves_carryOut sound₁ rework known d.status now
          exact carried.chain fun _ s' renewed => leaves_pure renewed _

theorem pruned_delete (s : Store) (k : Kind) (ns name : String) :
    Pruned s (s.delete k ns name).2 := by
  by_cases kind : Kind.releases = k
  · subst kind
    intro key o found
    rw [getByKey_delete] at found
    split at found
    · cases found
    · exact found
  · exact pruned_of_agrees (agrees_delete kind s ns name)

theorem leaves_removeOwnedOf (pruned : Pruned s t) (k : Kind) (owner : String) :
    (removeOwnedOf k owner).Leaves t (Pruned s) := by
  have removed : ∀ o ∈ (t.list k).filter (fun o => o.info.owner = some owner), ∀ u, Pruned s u →
      (Pass.write fun v => .ok (v.delete k o.info.ns o.info.name)).Leaves u (Pruned s) := by
    intro o _ u pruned
    exact pruned.trans (pruned_delete u k o.info.ns o.info.name)
  unfold removeOwnedOf
  refine leads_read ?_
  exact (leaves_mapM removed pruned).chain fun _ _ pruned => leaves_pure pruned _

theorem leaves_removeOwned (s : Store) (key : String) :
    (removeOwned key).Leaves s (Pruned s) := by
  have start : Pruned s s := fun _ _ found => found
  unfold removeOwned
  refine (leaves_removeOwnedOf start .releases key).chain fun _ _ pruned => ?_
  refine (leaves_removeOwnedOf pruned .autoscalers key).chain fun _ _ pruned => ?_
  refine (leaves_removeOwnedOf pruned .trafficSplits key).chain fun _ _ pruned => ?_
  exact (leaves_removeOwnedOf pruned .configMaps key).chain fun _ _ pruned => leaves_pure pruned _

/-- **A pass over a descriptor rewrites no release.**  Whether it succeeds or fails, releases have
been revised or created, and then some have been deleted. -/
theorem leaves_run (sound : s.Sound) (key : String) (now : Nat) :
    (run key now).Leaves s (Renewed s) := by
  unfold run
  refine leads_read ?_
  cases s.getByKey .descriptors key with
  | some d => exact leaves_deploy sound d now
  | none =>
      have nothing : Renewed s s := (Underway.refl sound).renewed
      have removed := (leaves_removeOwned s key).mono fun _ pruned => nothing.pruned pruned
      exact ((removed.within _).map _).chain fun _ _ renewed => leaves_pure renewed _

end Deployment
end Cutover
