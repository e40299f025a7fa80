/-
# Cutover.Proofs.Store.Scan -- what a query would find without the index

A scan goes through a whole table and keeps the objects that satisfy a query.  What the
objects of a descriptor are after a pass is said by scans, since the index is no more than a
way to find them.

Where every label of every object has its entry (`Indexed`), a query finds what a scan does
(`matching_perm_scan`).  A write puts one object in place of what a scan gave under its key
(`Puts.scan`), and a deletion takes that away (`scan_delete`).
-/
import Cutover.Proofs.Store.Query
import Mathlib.Data.List.Nodup

namespace Cutover.Store

set_option autoImplicit false

variable {k : Kind} {s s' : Store} {query : Selector}

/-- The objects of a kind whose labels satisfy a query, in key order. -/
def scan (s : Store) (k : Kind) (query : Selector) : List (Object k) :=
  (s.list k).filter fun o => query.accepts o.info.labels

/-! ## What a scan finds -/

theorem mem_list (sound : s.Sound) {o : Object k} : o ∈ s.list k ↔ s.getByKey k o.key = some o := by
  unfold list getByKey Dict.values
  rw [List.mem_map]
  constructor
  · rintro ⟨⟨key, x⟩, member, rfl⟩
    have found : (s.tables.get k).get? key = some x := (Dict.get?_eq_some_iff _).2 member
    rwa [show x.key = key from sound.keyed k key x found]
  · intro found
    exact ⟨(o.key, o), (Dict.get?_eq_some_iff _).1 found, rfl⟩

theorem nodup_list (sound : s.Sound) (k : Kind) : ((s.list k).map (·.key)).Nodup := by
  have keys : (s.list k).map (·.key) = (s.tables.get k).keys := by
    unfold list Dict.values Dict.keys
    rw [List.map_map]
    refine List.map_congr_left fun entry member => ?_
    exact sound.keyed k _ _ ((Dict.get?_eq_some_iff _).2 member)
  rw [keys]
  refine (List.pairwise_map.2 (s.tables.get k).ordered).imp ?_
  rintro key _ lt rfl
  exact String.lt_irrefl _ lt

theorem mem_scan (sound : s.Sound) {o : Object k} :
    o ∈ s.scan k query ↔ s.getByKey k o.key = some o ∧ query.accepts o.info.labels = true := by
  unfold scan
  rw [List.mem_filter, mem_list sound]

/-- No two objects of a scan stand under one key. -/
theorem nodup_scan (sound : s.Sound) : ((s.scan k query).map (·.key)).Nodup :=
  (nodup_list sound k).sublist ((List.filter_sublist).map _)

theorem Agrees.scan (agrees : Agrees k s s') (query : Selector) :
    s'.scan k query = s.scan k query := by
  unfold Store.scan list
  rw [agrees.table]

/-- Lists of objects with different keys are the same up to order if their members are. -/
theorem perm_of_nodup_keys {xs ys : List (Object k)} (nodup : (xs.map (·.key)).Nodup)
    (nodup' : (ys.map (·.key)).Nodup) (same : ∀ o, o ∈ xs ↔ o ∈ ys) : xs.Perm ys :=
  (List.perm_ext_iff_of_nodup (List.Nodup.of_map _ nodup) (List.Nodup.of_map _ nodup')).2 same

/-! ## Queries -/

/-- Every label of every object has its entry in the index. -/
def Indexed (s : Store) : Prop :=
  ∀ (k : Kind) (key : String) (o : Object k), s.getByKey k key = some o →
    ∀ label value, o.label? label = some value → Index.entry k label value key ∈ s.index.keys

theorem indexed_empty (clock : Nat) : (Store.empty clock).Indexed := by
  intro k key o found
  cases k <;> cases found

/-- A new object gets its entries, and no entry goes. -/
theorem Indexed.commit_new (indexed : s.Indexed) (o : Object k) (change : Change) :
    (s.commit o ∅ change).Indexed := by
  intro j key x found label value has
  refine Index.mem_keys_relabel.2 ?_
  have kept : ∀ text ∈ s.index.keys, text ∉ Index.entriesBeyond k o.key ∅ o.info.labels := by
    intro text _ member
    obtain ⟨label, value, absent, -⟩ := Index.mem_entriesBeyond.1 member
    cases absent
  by_cases kind : j = k
  · subst kind
    by_cases same : key = o.key
    · subst same
      rw [getByKey_commit_self] at found
      cases found
      exact .inl (Index.mem_entriesBeyond.2 ⟨label, value, has, by simp, rfl⟩)
    · rw [getByKey_commit_of_ne s o ∅ change same] at found
      have entry := indexed j key x found label value has
      exact .inr ⟨kept _ entry, entry⟩
  · rw [(agrees_commit kind s o ∅ change).getByKey] at found
    have entry := indexed j key x found label value has
    exact .inr ⟨kept _ entry, entry⟩

theorem scan_empty (clock : Nat) (k : Kind) (query : Selector) :
    (Store.empty clock).scan k query = [] := by
  cases k <;> rfl

theorem matching_perm_scan (sound : s.Sound) (indexed : s.Indexed) (k : Kind)
    (app target : String) : (s.matching k (Selector.ofTarget app target)).Perm
      (s.scan k (Selector.ofTarget app target)) := by
  refine perm_of_nodup_keys (nodup_matching sound (Selector.entries_ofTarget ..))
    (nodup_scan sound) fun o => ?_
  rw [mem_ofTarget sound, mem_scan sound, Selector.accepts_ofTarget]
  constructor
  · rintro ⟨found, -, labels⟩
    exact ⟨found, labels⟩
  · rintro ⟨found, app, target⟩
    exact ⟨found, indexed k _ o found _ _ app, app, target⟩

/-! ## Writes -/

/-- What of some objects stands under none of the keys. -/
def without (keys : List String) (xs : List (Object k)) : List (Object k) :=
  xs.filter fun x => x.key ∉ keys

theorem mem_without {keys : List String} {xs : List (Object k)} {x : Object k} :
    x ∈ without keys xs ↔ x ∈ xs ∧ x.key ∉ keys := by
  simp [without]

theorem nodup_without {keys : List String} {xs : List (Object k)} (nodup : (xs.map (·.key)).Nodup) :
    ((without keys xs).map (·.key)).Nodup :=
  nodup.sublist ((List.filter_sublist).map _)

theorem without_cons (key : String) (keys : List String) (xs : List (Object k)) :
    without (key :: keys) xs = without keys (without [key] xs) := by
  unfold without
  rw [List.filter_filter]
  refine List.filter_congr fun x _ => ?_
  simp [Bool.and_comm]

/-- One object has come under its key; all else is as it was. -/
structure Puts (o : Object k) (s s' : Store) : Prop where
  here : s'.getByKey k o.key = some o
  there : ∀ key, key ≠ o.key → s'.getByKey k key = s.getByKey k key
  others : ∀ j, j ≠ k → Agrees j s s'
  sound : s'.Sound

theorem Puts.refl (sound : s.Sound) {o : Object k} (found : s.getByKey k o.key = some o) :
    Puts o s s where
  here := found
  there := fun _ _ => rfl
  others := fun j _ => Agrees.refl j s
  sound := sound

theorem puts_commit (sound : s.Sound) {o : Object k} (accepted : o.info.isPersisted = true)
    (before : Dict String) (change : Change) : Puts o s (s.commit o before change) where
  here := getByKey_commit_self s o before change
  there := fun _ ne => getByKey_commit_of_ne s o before change ne
  others := fun _ ne => agrees_commit ne s o before change
  sound := sound.commit accepted before change

theorem Replaces.puts {o o' : Object k} (replaces : Replaces o o' s s') (key : o'.key = o.key) :
    Puts o' s s' where
  here := by rw [key]; exact replaces.here
  there := fun other ne => replaces.there other (key ▸ ne)
  others := replaces.others
  sound := replaces.sound

/-- Replacing an object by one with its labels leaves the index as it is. -/
theorem Replaces.indexed {o o' : Object k} (replaces : Replaces o o' s s')
    (found : s.getByKey k o.key = some o) (labels : o'.info.labels = o.info.labels)
    (indexed : s.Indexed) : s'.Indexed := by
  have index : s'.index = s.index := by
    rw [replaces.index, labels, Index.relabel_self]
  intro j key x there label value has
  rw [index]
  by_cases kind : j = k
  · subst kind
    by_cases same : key = o.key
    · subst same
      rw [replaces.here] at there
      cases there
      refine indexed j o.key o found label value ?_
      unfold Object.label? at has ⊢
      rwa [labels] at has
    · rw [replaces.there key same] at there
      exact indexed j key x there label value has
  · rw [(replaces.others j kind).getByKey] at there
    exact indexed j key x there label value has

/-- **One write.**  A scan finds the object that has come under a key, and else what it found
under the other keys. -/
theorem Puts.scan {o : Object k} (puts : Puts o s s') (sound : s.Sound)
    (accepted : query.accepts o.info.labels = true) :
    (s'.scan k query).Perm (o :: without [o.key] (s.scan k query)) := by
  refine perm_of_nodup_keys (nodup_scan puts.sound) ?_ fun x => ?_
  · refine List.nodup_cons.2 ⟨fun member => ?_, nodup_without (nodup_scan sound)⟩
    obtain ⟨x, inside, same⟩ := List.mem_map.1 member
    exact (mem_without.1 inside).2 (List.mem_singleton.2 same)
  · rw [mem_scan puts.sound, List.mem_cons, mem_without, mem_scan sound, List.mem_singleton]
    by_cases same : x.key = o.key
    · rw [same, puts.here]
      constructor
      · rintro ⟨found, -⟩
        exact .inl (Option.some.inj found).symm
      · rintro (rfl | ⟨-, ne⟩)
        · exact ⟨rfl, accepted⟩
        · exact absurd rfl ne
    · rw [puts.there _ same]
      constructor
      · intro found
        exact .inr ⟨found, same⟩
      · rintro (rfl | ⟨found, -⟩)
        · exact absurd rfl same
        · exact found

theorem scan_delete (sound : s.Sound) (ns name : String) : ((s.delete k ns name).2.scan k query).Perm
    (without [objectKey ns name] (s.scan k query)) := by
  have sound' := sound.delete k ns name
  refine perm_of_nodup_keys (nodup_scan sound') (nodup_without (nodup_scan sound)) fun x => ?_
  rw [mem_scan sound', mem_without, mem_scan sound, getByKey_delete, List.mem_singleton]
  split
  · rename_i same
    simp [same]
  · rename_i ne
    simp [ne]

end Cutover.Store
