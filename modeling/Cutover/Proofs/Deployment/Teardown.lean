/-
# Cutover.Proofs.Deployment.Teardown -- what a descriptor leaves behind is cleared away

With a descriptor gone, a pass over its key removes the objects of four kinds that have it as their
owner (`ownedKinds`), kind by kind, and nothing else (`getByKey_disown`).  Replica groups are none of
them.  Their owner is the release, and a pass over the key of a release that is gone removes the
group of that key (`ends_run_gone`).

Both are deletions of what a look at the store has found, so they cannot fail, they keep the index
consistent, and a second pass finds nothing to do.
-/
import Cutover.Deployment.Pass
import Cutover.Proofs.Release.Repetition
import Cutover.Proofs.Store.Removal

namespace Cutover

set_option autoImplicit false

open Pass Store

/-! ## Objects with an owner -/

namespace Deployment

variable {k : Kind} {s s' : Store} {owner : String}

/-- The kinds of objects that are removed with a descriptor. -/
def ownedKinds : List Kind := [.releases, .autoscalers, .trafficSplits, .configMaps]

/-- Where the objects of a kind with an owner stand. -/
def placesOf (s : Store) (k : Kind) (owner : String) : List (String × String) :=
  ((s.list k).filter fun o => o.info.owner = some owner).map fun o => (o.info.ns, o.info.name)

/-- The store without the objects of some kinds with an owner. -/
def disown (owner : String) (s : Store) (kinds : List Kind) : Store :=
  kinds.foldl (fun s k => s.strip k (placesOf s k owner)) s

theorem mem_keysOf_placesOf (sound : s.Sound) {key : String} : key ∈ keysOf (placesOf s k owner) ↔
    ∃ o : Object k, s.getByKey k key = some o ∧ o.info.owner = some owner := by
  unfold keysOf placesOf
  rw [List.map_map, List.mem_map]
  constructor
  · rintro ⟨o, member, rfl⟩
    obtain ⟨listed, owned⟩ := List.mem_filter.1 member
    exact ⟨o, (mem_list sound).1 listed, of_decide_eq_true owned⟩
  · rintro ⟨o, found, owned⟩
    obtain rfl := sound.keyed k key o found
    exact ⟨o, List.mem_filter.2 ⟨(mem_list sound).2 found, decide_eq_true owned⟩, rfl⟩

theorem sound_disown (sound : s.Sound) (owner : String) (kinds : List Kind) :
    (disown owner s kinds).Sound := by
  induction kinds generalizing s with
  | nil => exact sound
  | cons k kinds ih => exact ih (sound.strip k _)

theorem consistent_disown (consistent : s.Consistent) (owner : String) (kinds : List Kind) :
    (disown owner s kinds).Consistent := by
  induction kinds generalizing s with
  | nil => exact consistent
  | cons k kinds ih => exact ih (consistent.strip k _)

/-- **What is left.**  Exactly the objects of these kinds with this owner have gone. -/
theorem getByKey_disown (sound : s.Sound) (kinds : List Kind) {key : String} {o : Object k} :
    (disown owner s kinds).getByKey k key = some o ↔
      s.getByKey k key = some o ∧ ¬ (k ∈ kinds ∧ o.info.owner = some owner) := by
  induction kinds generalizing s with
  | nil => simp [disown]
  | cons j kinds ih =>
      have rest := ih (sound.strip j (placesOf s j owner))
      rw [disown, List.foldl_cons, ← disown, rest]
      by_cases kind : k = j
      · subst kind
        rw [getByKey_strip]
        by_cases owned : key ∈ keysOf (placesOf s k owner)
        · obtain ⟨x, found, has⟩ := (mem_keysOf_placesOf sound).1 owned
          rw [if_pos owned, found]
          simp only [reduceCtorEq, false_and, Option.some.injEq, List.mem_cons, true_or,
            true_and, false_iff, not_and, not_not]
          rintro rfl
          exact has
        · rw [if_neg owned]
          have free (found : s.getByKey k key = some o) : ¬ o.info.owner = some owner :=
            fun has => owned ((mem_keysOf_placesOf sound).2 ⟨o, found, has⟩)
          constructor
          · rintro ⟨found, -⟩
            exact ⟨found, fun both => free found both.2⟩
          · rintro ⟨found, -⟩
            exact ⟨found, fun both => free found both.2⟩
      · rw [(agrees_strip kind s _).getByKey]
        simp only [List.mem_cons, kind, false_or]

theorem unowned_disown (sound : s.Sound) {kinds : List Kind} (member : k ∈ kinds) {key : String}
    {o : Object k} (found : (disown owner s kinds).getByKey k key = some o) :
    o.info.owner ≠ some owner :=
  fun owned => ((getByKey_disown sound kinds).1 found).2 ⟨member, owned⟩

theorem getByKey_disown_of_none (sound : s.Sound) (kinds : List Kind) {key : String}
    (free : s.getByKey k key = none) : (disown owner s kinds).getByKey k key = none := by
  refine Option.eq_none_iff_forall_ne_some.2 fun o found => ?_
  cases free.symm.trans ((getByKey_disown sound kinds).1 found).1

theorem getByKey_disown_of_owned (sound : s.Sound) {kinds : List Kind} (member : k ∈ kinds)
    {key : String} {o : Object k} (found : s.getByKey k key = some o)
    (owned : o.info.owner = some owner) : (disown owner s kinds).getByKey k key = none := by
  refine Option.eq_none_iff_forall_ne_some.2 fun x stays => ?_
  have before := (getByKey_disown sound kinds).1 stays
  obtain rfl := Option.some.inj (found.symm.trans before.1)
  exact before.2 ⟨member, owned⟩

/-- Where nothing has the owner, nothing goes. -/
theorem disown_eq_self {kinds : List Kind}
    (none_ : ∀ k ∈ kinds, ∀ key (o : Object k), s.getByKey k key = some o →
      o.info.owner ≠ some owner) (sound : s.Sound) : disown owner s kinds = s := by
  induction kinds with
  | nil => rfl
  | cons k kinds ih =>
      obtain ⟨here, there⟩ := List.forall_mem_cons.1 none_
      have nowhere : placesOf s k owner = [] := by
        unfold placesOf
        rw [List.map_eq_nil_iff, List.filter_eq_nil_iff]
        intro o member
        simpa using here o.key o ((mem_list sound).1 member)
      rw [disown, List.foldl_cons, nowhere]
      exact ih there

/-! ## The pass over the descriptor -/

theorem ends_removeOwnedOf (s : Store) (k : Kind) (owner : String) :
    Ends (removeOwnedOf k owner) s fun _ s' => s' = s.strip k (placesOf s k owner) := by
  unfold removeOwnedOf
  refine ends_read ?_
  have removed : Ends (((s.list k).filter fun o => o.info.owner = some owner).mapM fun o =>
      Pass.write fun s => .ok (s.delete k o.info.ns o.info.name)) s fun _ s' =>
      s' = s.strip k (placesOf s k owner) :=
    ends_mapM_strip (fun _ _ _ (_ : True) => trivial) (fun _ _ _ _ => ends_write rfl rfl) trivial
  exact removed.bind fun _ _ same => ends_pure same

theorem ends_removeOwned (s : Store) (owner : String) :
    Ends (removeOwned owner) s fun _ s' => s' = disown owner s ownedKinds := by
  unfold removeOwned
  refine (ends_removeOwnedOf s .releases owner).bind fun _ s₁ first => ?_
  refine (ends_removeOwnedOf s₁ .autoscalers owner).bind fun _ s₂ second => ?_
  refine (ends_removeOwnedOf s₂ .trafficSplits owner).bind fun _ s₃ third => ?_
  refine (ends_removeOwnedOf s₃ .configMaps owner).bind fun _ s₄ fourth => ends_pure ?_
  rw [fourth, third, second, first]
  simp only [disown, ownedKinds, List.foldl_cons, List.foldl_nil]

theorem ends_run_gone (gone : s.getByKey .descriptors owner = none) (now : Nat) :
    Ends (run owner now) s fun a s' => a = .awaitChange ∧ s' = disown owner s ownedKinds := by
  unfold run
  refine ends_read ?_
  simp only [gone]
  refine (ends_removeOwned s owner).within.discard.bind fun _ s' removed => ?_
  exact ends_pure ⟨rfl, removed.choose_spec⟩

/-- A pass over a descriptor that is gone, and of which nothing is left, does nothing. -/
theorem run_eq_self (sound : s.Sound) (gone : s.getByKey .descriptors owner = none)
    (none_ : ∀ k ∈ ownedKinds, ∀ key (o : Object k), s.getByKey k key = some o →
      o.info.owner ≠ some owner) (now : Nat) : run owner now s = .ok .awaitChange s := by
  obtain ⟨_, _, done, rfl, same⟩ := ends_run_gone gone now
  rwa [same, disown_eq_self none_ sound] at done

end Deployment

/-! ## The passes over the releases -/

/-- A name in a namespace, neither with a slash, is found again from its key. -/
theorem objectKey_splitKey_objectKey {ns name : String} (plain : '/' ∉ ns.toList)
    (plain' : '/' ∉ name.toList) :
    objectKey (splitKey (objectKey ns name)).1 (splitKey (objectKey ns name)).2 =
      objectKey ns name := by
  refine objectKey_splitKey ?_
  unfold objectKey
  split
  · exact fun first => plain' (List.mem_of_head? first)
  · rename_i named
    intro first
    rw [String.toList_append, String.toList_append] at first
    cases chars : ns.toList with
    | nil => exact named (String.toList_inj.1 chars)
    | cons c rest =>
        rw [chars] at first plain
        cases first
        exact plain List.mem_cons_self

namespace ReleasePass

variable {s : Store} {key : String}

theorem run_eq_self (reached : objectKey (splitKey key).1 (splitKey key).2 = key)
    (gone : s.getByKey .releases key = none) (free : s.getByKey .replicaGroups key = none)
    (now : Nat) : run key now s = .ok .awaitChange s := by
  rw [← reached] at gone free
  obtain ⟨_, _, done, rfl, same⟩ := ends_run_gone gone now
  rwa [same, delete_of_free free] at done

/-- The groups of some keys have gone, and nothing else. -/
structure Swept (s s' : Store) (keys : List String) : Prop where
  free : ∀ key ∈ keys, s'.getByKey .replicaGroups key = none
  kept : ∀ k key, ¬ (k = .replicaGroups ∧ key ∈ keys) → s'.getByKey k key = s.getByKey k key

theorem swept_strip (s : Store) {places : List (String × String)} {keys : List String}
    (same : keysOf places = keys) : Swept s (s.strip .replicaGroups places) keys := by
  subst same
  constructor
  · intro key member
    rw [getByKey_strip, if_pos member]
  · intro k key elsewhere
    by_cases kind : k = .replicaGroups
    · subst kind
      rw [getByKey_strip, if_neg fun member => elsewhere ⟨rfl, member⟩]
    · exact (agrees_strip kind s _).getByKey key

theorem Swept.others {s' : Store} {keys : List String} {k : Kind} (swept : Swept s s' keys)
    (ne : k ≠ .replicaGroups) (key : String) : s'.getByKey k key = s.getByKey k key :=
  swept.kept k key fun both => ne both.1

/-- Passes over releases that are gone take away their groups, and leave nothing to do for
themselves. -/
theorem ends_visits {visits : List (String × Nat)} (sound : s.Sound) (consistent : s.Consistent)
    (reached : ∀ v ∈ visits, objectKey (splitKey v.1).1 (splitKey v.1).2 = v.1)
    (gone : ∀ v ∈ visits, s.getByKey .releases v.1 = none) :
    Ends (visits.mapM fun v => run v.1 v.2) s fun _ s' =>
      Swept s s' (visits.map (·.1)) ∧ s'.Sound ∧ s'.Consistent ∧
      ∀ v ∈ visits, ∀ later, run v.1 later s' = .ok .awaitChange s' := by
  have stripped : Ends (visits.mapM fun v => run v.1 v.2) s fun _ s' =>
      s' = s.strip .replicaGroups (visits.map fun v => splitKey v.1) := by
    refine ends_mapM_strip (fun t ns name (agrees : Agrees .releases s t) =>
      agrees.trans (agrees_delete (by decide) t ns name)) ?_ (Agrees.refl _ s)
    intro v member t agrees
    refine (ends_run_gone ?_ v.2).mono fun _ _ both => both.2
    rw [agrees.get]
    unfold Store.get
    rw [reached v member, gone v member]
  have keys : keysOf (visits.map fun v => splitKey v.1) = visits.map (·.1) := by
    unfold keysOf
    rw [List.map_map]
    exact List.map_congr_left reached
  refine stripped.mono fun _ s' same => ?_
  have swept : Swept s s' (visits.map (·.1)) := same ▸ swept_strip s keys
  refine ⟨swept, same ▸ sound.strip .replicaGroups _, same ▸ consistent.strip .replicaGroups _, ?_⟩
  intro v member
  refine run_eq_self (reached v member) ?_ (swept.free v.1 (List.mem_map_of_mem member))
  rw [swept.others (by decide), gone v member]

end ReleasePass

/-! ## Both -/

namespace Deployment

/-- **A descriptor that is gone is cleared away.**  A pass over its key succeeds; what has gone after
it are the releases, autoscalers, traffic splits and config maps that it owned, and the index is
consistent still.  Passes over removed releases then succeed in any order, and what goes
with them are the groups of these releases.  After that each of these passes leaves the store as it
is. -/
theorem teardown_complete_and_exact {s : Store} {owner : String} (sound : s.Sound)
    (consistent : s.Consistent) (gone : s.getByKey .descriptors owner = none)
    (plain : ∀ key (r : Release), s.getByKey .releases key = some r →
      '/' ∉ r.info.ns.toList ∧ '/' ∉ r.info.name.toList) (now : Nat)
    {visits : List (String × Nat)} (removed : ∀ v ∈ visits, ∃ r : Release,
      s.getByKey .releases v.1 = some r ∧ r.info.owner = some owner) :
    Ends (run owner now) s fun a s' => a = .awaitChange ∧
      (∀ k key (o : Object k), s'.getByKey k key = some o ↔ s.getByKey k key = some o ∧
        ¬ (k ∈ ownedKinds ∧ o.info.owner = some owner)) ∧
      s'.Consistent ∧ (∀ later, run owner later s' = .ok .awaitChange s') ∧
      Ends (visits.mapM fun v => ReleasePass.run v.1 v.2) s' fun _ s'' =>
        (∀ v ∈ visits, s''.getByKey .replicaGroups v.1 = none) ∧
        (∀ k key, ¬ (k = .replicaGroups ∧ key ∈ visits.map (·.1)) →
          s''.getByKey k key = s'.getByKey k key) ∧
        s''.Consistent ∧ (∀ later, run owner later s'' = .ok .awaitChange s'') ∧
        ∀ v ∈ visits, ∀ later, ReleasePass.run v.1 later s'' = .ok .awaitChange s'' := by
  refine (ends_run_gone gone now).mono fun a s' ended => ?_
  obtain ⟨rfl, same⟩ := ended
  have sound' : s'.Sound := same ▸ sound_disown sound owner ownedKinds
  have consistent' : s'.Consistent := same ▸ consistent_disown consistent owner ownedKinds
  have gone' : s'.getByKey .descriptors owner = none :=
    same ▸ getByKey_disown_of_none sound ownedKinds gone
  have unowned : ∀ k ∈ ownedKinds, ∀ key (o : Object k), s'.getByKey k key = some o →
      o.info.owner ≠ some owner :=
    fun k member key o found => unowned_disown sound member (same ▸ found)
  refine ⟨rfl, fun k key o => same ▸ getByKey_disown sound ownedKinds, consistent',
    run_eq_self sound' gone' unowned, ?_⟩
  have reached : ∀ v ∈ visits, objectKey (splitKey v.1).1 (splitKey v.1).2 = v.1 := by
    intro v member
    obtain ⟨r, found, -⟩ := removed v member
    obtain ⟨plain_ns, plain_name⟩ := plain v.1 r found
    rw [← sound.keyed .releases v.1 r found]
    exact objectKey_splitKey_objectKey plain_ns plain_name
  have away : ∀ v ∈ visits, s'.getByKey .releases v.1 = none := by
    intro v member
    obtain ⟨r, found, owned⟩ := removed v member
    exact same ▸ getByKey_disown_of_owned sound (by decide) found owned
  refine (ReleasePass.ends_visits sound' consistent' reached away).mono fun _ s'' visited => ?_
  obtain ⟨swept, sound'', consistent'', again⟩ := visited
  refine ⟨fun v member => swept.free v.1 (List.mem_map_of_mem member), swept.kept, consistent'',
    ?_, again⟩
  -- groups are of none of the kinds that a descriptor owns
  have others : ∀ k ∈ .descriptors :: ownedKinds, ∀ key, s''.getByKey k key = s'.getByKey k key :=
    fun k member key => swept.others (by rintro rfl; revert member; decide) key
  refine run_eq_self sound'' ?_ fun k member key o found => ?_
  · rw [others _ List.mem_cons_self, gone']
  · rw [others k (List.mem_cons_of_mem _ member)] at found
    exact unowned k member key o found

namespace Sample

/-- An object in production that belongs to a descriptor. -/
def belonging {k : Kind} (name owner : String) (spec : k.Spec) (status : k.Status) : Object k where
  info := { Meta.fresh "prod" name with
    labels := Label.ofTarget "web" "prod", owner := some owner }
  spec
  status

/-- What two descriptors have made.  The first one is no longer there. -/
def leftovers : List Request :=
  [.create (belonging (k := .releases) "web-1" "web-prod" default default),
    .create (belonging (k := .releases) "web-2" "shop-prod" default default),
    .create (belonging (k := .replicaGroups) "web-1" "web-1" default default),
    .create (belonging (k := .replicaGroups) "web-2" "web-2" default default),
    .create (belonging (k := .autoscalers) "web-scaler" "web-prod" default default),
    .create (belonging (k := .trafficSplits) "web" "web-prod" default ()),
    .create (belonging (k := .configMaps) "web-a1" "web-prod" default ())]

def abandoned : Store := (Store.empty 9).after leftovers

theorem sound_abandoned : abandoned.Sound := (sound_empty 9).after leftovers

theorem consistent_abandoned : abandoned.Consistent := by
  have each : ∀ before ∈ leftovers.inits, ((Store.empty 9).after before).Plain := by decide
  have plain (before : List Request) (start : before <+: leftovers) :
      ((Store.empty 9).after before).Plain := each before ((List.mem_inits _ _).2 start)
  have mirrored := (mirrored_empty 9).after (sound_empty 9) plain
  exact mirrored.consistent fun m bears => (plain leftovers (List.prefix_refl _) m bears).key

/-- The release of the other descriptor and its group stay. -/
theorem abandoned_cleared_away :
    Ends (run "web-prod" 5) abandoned fun _ s' =>
      s'.getByKey .releases "prod/web-1" = none ∧
      (s'.getByKey .releases "prod/web-2").isSome = true ∧
      Ends ([("prod/web-1", 6)].mapM fun v => ReleasePass.run v.1 v.2) s' fun _ s'' =>
        s''.getByKey .replicaGroups "prod/web-1" = none ∧
        s''.getByKey .replicaGroups "prod/web-2" = s'.getByKey .replicaGroups "prod/web-2" ∧
        s''.Consistent := by
  have plain : ∀ key (r : Release), abandoned.getByKey .releases key = some r →
      '/' ∉ r.info.ns.toList ∧ '/' ∉ r.info.name.toList := by
    have each : ∀ r ∈ abandoned.list .releases,
        '/' ∉ r.info.ns.toList ∧ '/' ∉ r.info.name.toList := by decide
    intro key r found
    obtain rfl := sound_abandoned.keyed .releases key r found
    exact each r ((mem_list sound_abandoned).2 found)
  obtain ⟨first, found, owned⟩ := Option.map_eq_some_iff.1 (show
    (abandoned.getByKey .releases "prod/web-1").map (·.info.owner) = some (some "web-prod") by decide)
  obtain ⟨second, found', owned'⟩ := Option.map_eq_some_iff.1 (show
    (abandoned.getByKey .releases "prod/web-2").map (·.info.owner) = some (some "shop-prod") by
      decide)
  have removed : ∀ v ∈ [("prod/web-1", 6)], ∃ r : Release,
      abandoned.getByKey .releases v.1 = some r ∧ r.info.owner = some "web-prod" :=
    List.forall_mem_singleton.2 ⟨first, found, owned⟩
  refine (teardown_complete_and_exact sound_abandoned consistent_abandoned (by decide) plain 5
    removed).mono fun _ s' cleared => ?_
  obtain ⟨-, left, -, -, visited⟩ := cleared
  refine ⟨?_, ?_, visited.mono fun _ s'' swept => ?_⟩
  · refine Option.eq_none_iff_forall_ne_some.2 fun r stays => ?_
    have before := (left .releases "prod/web-1" r).1 stays
    obtain rfl := Option.some.inj (found.symm.trans before.1)
    exact before.2 ⟨by decide, owned⟩
  · refine Option.isSome_iff_exists.2 ⟨second, (left _ _ _).2 ⟨found', ?_⟩⟩
    rw [owned']
    decide
  · obtain ⟨free, kept, consistent, -⟩ := swept
    exact ⟨free ("prod/web-1", 6) (by decide), kept _ _ (by decide), consistent⟩

end Sample

end Deployment
end Cutover
