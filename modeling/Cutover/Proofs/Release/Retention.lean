/-
# Cutover.Proofs.Release.Retention -- which releases expire, and what is left

Retention goes by the place of a release among all of its descriptor.  In a list that is sorted
newest first this is the number of releases that come before it (`getElem?_sortNewestFirst_iff`).
So what expires can be said without the list being sorted (`mem_expired_sorted_iff`).

Sorting is stable, and with fewer releases fewer come before each of them
(`ahead_le_of_sublist`).  What was kept is therefore kept when the others have gone
(`expired_remaining`).
-/
import Cutover.Proofs.Ramp.Rollout
import Cutover.Proofs.Release.Recency
import Cutover.Proofs.Store.Removal
import Cutover.Release.Retention

namespace Cutover.Release

set_option autoImplicit false

open Pass Store

variable {s : Store} {rs xs : List Release} {x y : Release} {now : Nat} {i : Nat}

/-! ## Places in a sorted list -/

/-- Of two members one stands before the other. -/
theorem pair_sublist_or (inside : x ∈ xs) (inside' : y ∈ xs) (ne : x ≠ y) :
    [x, y].Sublist xs ∨ [y, x].Sublist xs := by
  induction xs with
  | nil => cases inside
  | cons z xs ih =>
      rcases List.mem_cons.1 inside with rfl | later
      · have after := (List.mem_cons.1 inside').resolve_left ne.symm
        exact .inl ((List.singleton_sublist.2 after).cons_cons x)
      · rcases List.mem_cons.1 inside' with rfl | later'
        · exact .inr ((List.singleton_sublist.2 later).cons_cons y)
        · exact (ih later later').imp (.cons z) (.cons z)

theorem not_pair_sublist (distinct : xs.Nodup) (first : [x, y].Sublist xs) :
    ¬ [y, x].Sublist xs := by
  have rising : xs.Pairwise fun a b => xs.idxOf a < xs.idxOf b := by
    refine List.pairwise_iff_getElem.2 fun i j lt lt' before => ?_
    rwa [distinct.idxOf_getElem, distinct.idxOf_getElem]
  intro second
  have lt := List.rel_of_pairwise_cons (rising.sublist first) (List.mem_singleton.2 rfl)
  have lt' := List.rel_of_pairwise_cons (rising.sublist second) (List.mem_singleton.2 rfl)
  exact Nat.lt_asymm lt lt'

/-- The place of a member is the number of those that stand before it. -/
theorem countP_before (distinct : xs.Nodup) (at_ : xs[i]? = some x) :
    xs.countP (fun y => [y, x].Sublist xs) = i := by
  induction xs generalizing i with
  | nil => cases at_
  | cons z xs ih =>
      obtain ⟨fresh, distinct'⟩ := List.nodup_cons.1 distinct
      cases i with
      | zero =>
          cases at_
          refine List.countP_eq_zero.2 fun y _ before => fresh ?_
          exact List.singleton_sublist.1 (of_decide_eq_true before).of_cons_cons
      | succ i =>
          rw [List.getElem?_cons_succ] at at_
          have first : [z, x].Sublist (z :: xs) :=
            (List.singleton_sublist.2 (List.mem_of_getElem? at_)).cons_cons z
          have rest : xs.countP (fun y => [y, x].Sublist (z :: xs)) =
              xs.countP (fun y => [y, x].Sublist xs) := by
            refine List.countP_congr fun y inside => ?_
            have ne : y ≠ z := fun same => fresh (same ▸ inside)
            simp [List.cons_sublist_cons', ne]
          rw [List.countP_cons_of_pos, rest, ih distinct' at_]
          exact decide_eq_true first

/-- How many of some releases come before one of them.  Of releases that the order does not tell
apart the one that is listed first does. -/
def ahead (rs : List Release) (x : Release) : Nat :=
  rs.countP fun y => Precedes y x ∨ ¬ Precedes x y ∧ [y, x].Sublist rs

/-- What stands before a release in the sorted list comes before it. -/
theorem pair_sublist_sorted_iff (distinct : rs.Nodup) (inside : x ∈ rs) (inside' : y ∈ rs) :
    [y, x].Sublist (sortNewestFirst rs) ↔
      Precedes y x ∨ ¬ Precedes x y ∧ [y, x].Sublist rs := by
  have perm : (sortNewestFirst rs).Perm rs := List.mergeSort_perm ..
  have distinct' := perm.nodup_iff.2 distinct
  have falls {a b : Release} (before : [a, b].Sublist (sortNewestFirst rs)) : ¬ Precedes b a :=
    isLE_recency_iff.1 (List.pairwise_iff_forall_sublist.1 (sorted_sortNewestFirst rs) before)
  constructor
  · intro before
    by_cases newer : Precedes y x
    · exact .inl newer
    · have ne : y ≠ x := by
        rintro rfl
        exact List.nodup_iff_sublist.1 distinct' y before
      refine .inr ⟨falls before, (pair_sublist_or inside' inside ne).resolve_right fun after => ?_⟩
      have stays := pair_sublist_sortNewestFirst (isLE_recency_iff.2 newer) after
      exact not_pair_sublist distinct' before stays
  · rintro (newer | ⟨le, before⟩)
    · have ne : y ≠ x := by
        rintro rfl
        exact not_precedes_self y newer
      refine (pair_sublist_or (perm.mem_iff.2 inside') (perm.mem_iff.2 inside) ne).resolve_right ?_
      exact fun after => falls after newer
    · exact pair_sublist_sortNewestFirst (isLE_recency_iff.2 le) before

/-- **The place of a release in the sorted list** is the number of those that come before it. -/
theorem getElem?_sortNewestFirst_iff (distinct : rs.Nodup) :
    (sortNewestFirst rs)[i]? = some x ↔ x ∈ rs ∧ ahead rs x = i := by
  have perm : (sortNewestFirst rs).Perm rs := List.mergeSort_perm ..
  have distinct' := perm.nodup_iff.2 distinct
  have place {j : Nat} (at_ : (sortNewestFirst rs)[j]? = some x) : ahead rs x = j := by
    rw [← countP_before distinct' at_, perm.countP_eq]
    have inside := perm.mem_iff.1 (List.mem_of_getElem? at_)
    refine List.countP_congr fun y inside' => ?_
    simp only [decide_eq_true_eq]
    exact (pair_sublist_sorted_iff distinct inside inside').symm
  constructor
  · exact fun at_ => ⟨perm.mem_iff.1 (List.mem_of_getElem? at_), place at_⟩
  · rintro ⟨inside, rfl⟩
    obtain ⟨j, at_⟩ := List.getElem?_of_mem (perm.mem_iff.2 inside)
    rwa [place at_]

/-- Fewer releases come before one if there are fewer. -/
theorem ahead_le_of_sublist (fewer : xs.Sublist rs) : ahead xs x ≤ ahead rs x := by
  refine (List.countP_mono_left fun y _ before => ?_).trans fewer.countP_le
  simp only [decide_eq_true_eq] at before ⊢
  exact before.imp_right fun ⟨le, first⟩ => ⟨le, first.trans fewer⟩

/-! ## What expires -/

theorem isExpired_iff : isExpired now x = true ↔ x.info.isPersisted = true ∧
    minAge ≤ now - x.info.createdAt ∧ x.spec.role ≠ .active ∧ x.spec.role ≠ .target := by
  unfold isExpired
  simp only [Bool.and_eq_true, bne_iff_ne, decide_eq_true_eq]
  tauto

theorem mem_expired_iff : x ∈ expired xs now ↔
    ∃ i, xs[i]? = some x ∧ kept ≤ i ∧ isExpired now x = true := by
  unfold expired
  rw [List.mem_filter]
  constructor
  · rintro ⟨member, expired⟩
    obtain ⟨j, at_⟩ := List.getElem?_of_mem member
    rw [List.getElem?_drop] at at_
    exact ⟨kept + j, at_, Nat.le_add_right .., expired⟩
  · rintro ⟨i, at_, beyond, expired⟩
    obtain ⟨j, rfl⟩ := Nat.exists_eq_add_of_le beyond
    rw [← List.getElem?_drop] at at_
    exact ⟨List.mem_of_getElem? at_, expired⟩

/-- What expires of some releases once they are sorted. -/
theorem mem_expired_sorted_iff (distinct : rs.Nodup) : x ∈ expired (sortNewestFirst rs) now ↔
    x ∈ rs ∧ kept ≤ ahead rs x ∧ isExpired now x = true := by
  rw [mem_expired_iff]
  simp only [getElem?_sortNewestFirst_iff distinct]
  constructor
  · rintro ⟨_, ⟨inside, rfl⟩, beyond, old⟩
    exact ⟨inside, beyond, old⟩
  · rintro ⟨inside, beyond, old⟩
    exact ⟨_, ⟨inside, rfl⟩, beyond, old⟩

theorem nodup_expired_sorted (distinct : rs.Nodup) (now : Nat) :
    (expired (sortNewestFirst rs) now).Nodup :=
  (((List.mergeSort_perm ..).nodup_iff.2 distinct).sublist (List.drop_sublist ..)).filter _

theorem length_expired_le (xs : List Release) (now : Nat) :
    (expired xs now).length ≤ xs.length - kept := by
  unfold expired
  rw [← List.length_drop]
  exact List.length_filter_le ..

/-! ## What is removed -/

/-- Where some releases stand. -/
def placesOf (xs : List Release) : List (String × String) :=
  xs.map fun x => (x.info.ns, x.info.name)

theorem keysOf_placesOf (xs : List Release) : keysOf (placesOf xs) = xs.map (·.key) := by
  unfold keysOf placesOf
  rw [List.map_map]
  rfl

/-- Stored releases with keys of their own are removed one after the other, each of them found. -/
theorem ends_removeAll_found (keys : (xs.map (·.key)).Nodup)
    (found : ∀ x ∈ xs, (s.getByKey .releases x.key).isSome = true) :
    Ends (xs.mapM remove) s fun gone s' => gone = List.replicate xs.length true ∧
      s' = s.strip .releases (placesOf xs) := by
  induction xs generalizing s with
  | nil => exact ends_pure ⟨rfl, rfl⟩
  | cons x xs ih =>
      obtain ⟨fresh, keys⟩ := List.nodup_cons.1 keys
      obtain ⟨here, there⟩ := List.forall_mem_cons.1 found
      obtain ⟨current, stands⟩ := Option.isSome_iff_exists.1 here
      have deleted : (s.delete .releases x.info.ns x.info.name).1 = true := by
        have stands : s.getByKey .releases (objectKey x.info.ns x.info.name) = some current := stands
        unfold Store.delete
        simp only [stands]
      have removed : Ends (remove x) s fun gone s' =>
          gone = true ∧ s' = (s.delete .releases x.info.ns x.info.name).2 :=
        ends_write rfl ⟨deleted, rfl⟩
      rw [List.mapM_cons]
      refine removed.bind fun first s₁ both => ?_
      obtain ⟨rfl, after⟩ := both
      have still : ∀ y ∈ xs, (s₁.getByKey .releases y.key).isSome = true := by
        intro y inside
        have apart : y.key ≠ objectKey x.info.ns x.info.name := fun same =>
          fresh (List.mem_map.2 ⟨y, inside, same⟩)
        rw [after, getByKey_delete, if_neg apart]
        exact there y inside
      refine (ih keys still).bind fun rest s' both => ends_pure ⟨?_, ?_⟩
      · rw [both.1]
        rfl
      · rw [both.2, after]
        rfl

/-- Expired releases are removed and counted. -/
theorem ends_collectGarbage_found (keys : ((expired xs now).map (·.key)).Nodup)
    (found : ∀ x ∈ expired xs now, (s.getByKey .releases x.key).isSome = true) :
    Ends (collectGarbage xs now) s fun n s' => n = (expired xs now).length ∧
      s' = s.strip .releases (placesOf (expired xs now)) := by
  unfold collectGarbage
  refine (ends_removeAll_found keys found).bind fun gone s' both => ends_pure ⟨?_, both.2⟩
  rw [both.1]
  simp

theorem collectGarbage_of_none (none_ : expired xs now = []) :
    collectGarbage xs now s = .ok 0 s := by
  unfold collectGarbage
  rw [none_]
  rfl

/-! ## Sets of stored releases -/

/-- What of some releases is there still: those that no store has seen, and those that stand under
their keys. -/
def remaining (s : Store) (rs : List Release) : List Release :=
  rs.filter fun x => !x.info.isPersisted || (s.getByKey .releases x.key).isSome

section Retained

variable (distinct : rs.Nodup)
  (stored : ∀ x ∈ rs, x.info.isPersisted = true → s.getByKey .releases x.key = some x)

include distinct stored

theorem ends_retention (now : Nat) : Ends (collectGarbage (sortNewestFirst rs) now) s fun n s' =>
    n = (expired (sortNewestFirst rs) now).length ∧
      s' = s.strip .releases (placesOf (expired (sortNewestFirst rs) now)) := by
  have known {x : Release} (old : x ∈ expired (sortNewestFirst rs) now) :
      s.getByKey .releases x.key = some x := by
    obtain ⟨inside, -, expires⟩ := (mem_expired_sorted_iff distinct).1 old
    exact stored x inside (isExpired_iff.1 expires).1
  refine ends_collectGarbage_found ?_ fun x old => ?_
  · refine (nodup_expired_sorted distinct now).map_on fun x old y old' same => ?_
    exact Option.some.inj ((known old).symm.trans ((congrArg _ same).trans (known old')))
  · rw [known old]
    rfl

variable {s' : Store}
  (after : s' = s.strip .releases (placesOf (expired (sortNewestFirst rs) now)))

include after

/-- A stored release is gone if it expires, and else it is as it was. -/
theorem getByKey_retained (inside : x ∈ rs) (seen : x.info.isPersisted = true) :
    s'.getByKey .releases x.key =
      if kept ≤ ahead rs x ∧ isExpired now x = true then none else some x := by
  have gone : x.key ∈ (expired (sortNewestFirst rs) now).map (·.key) ↔
      kept ≤ ahead rs x ∧ isExpired now x = true := by
    rw [List.mem_map]
    constructor
    · rintro ⟨y, old, same⟩
      obtain ⟨inside', beyond, expires⟩ := (mem_expired_sorted_iff distinct).1 old
      have found := stored y inside' (isExpired_iff.1 expires).1
      rw [same, stored x inside seen] at found
      cases found
      exact ⟨beyond, expires⟩
    · rintro ⟨beyond, expires⟩
      exact ⟨x, (mem_expired_sorted_iff distinct).2 ⟨inside, beyond, expires⟩, rfl⟩
  rw [after, getByKey_strip, keysOf_placesOf, stored x inside seen]
  exact if_congr gone rfl rfl

theorem mem_remaining_iff :
    x ∈ remaining s' rs ↔ x ∈ rs ∧ ¬ (kept ≤ ahead rs x ∧ isExpired now x = true) := by
  unfold remaining
  rw [List.mem_filter]
  refine and_congr_right fun inside => ?_
  cases seen : x.info.isPersisted with
  | false =>
      refine iff_of_true rfl fun both => ?_
      rw [(isExpired_iff.1 both.2).1] at seen
      cases seen
  | true =>
      rw [getByKey_retained distinct stored after inside seen]
      split <;> simp_all

/-- Every release has gone, and was counted, or is there still. -/
theorem length_remaining :
    (expired (sortNewestFirst rs) now).length + (remaining s' rs).length = rs.length := by
  have apart : (expired (sortNewestFirst rs) now ++ remaining s' rs).Nodup := by
    refine List.nodup_append'.2 ⟨nodup_expired_sorted distinct now, distinct.filter _, fun x old stays => ?_⟩
    exact ((mem_remaining_iff distinct stored after).1 stays).2
      ((mem_expired_sorted_iff distinct).1 old).2
  have perm : (expired (sortNewestFirst rs) now ++ remaining s' rs).Perm rs := by
    refine (List.perm_ext_iff_of_nodup apart distinct).2 fun x => ?_
    rw [List.mem_append, mem_expired_sorted_iff distinct, mem_remaining_iff distinct stored after]
    tauto
  rw [← perm.length_eq, List.length_append]

/-- Nothing expires of what is there still: no release has come closer to the end. -/
theorem expired_remaining (fewer : xs.Sublist (remaining s' rs)) :
    expired (sortNewestFirst xs) now = [] := by
  have among : xs.Sublist rs := fewer.trans List.filter_sublist
  refine List.eq_nil_iff_forall_not_mem.2 fun x old => ?_
  obtain ⟨inside, beyond, expires⟩ := (mem_expired_sorted_iff (among.nodup distinct)).1 old
  refine ((mem_remaining_iff distinct stored after).1 (fewer.subset inside)).2 ⟨?_, expires⟩
  exact beyond.trans (ahead_le_of_sublist among)

end Retained

/-- An expired release stays one. -/
theorem isExpired_later {later : Nat} (le : now ≤ later) (old : isExpired now x = true) :
    isExpired later x = true := by
  rw [isExpired_iff] at old ⊢
  exact old.imp_right (And.imp_left fun age => age.trans (Nat.sub_le_sub_right le _))

/-- **What retention removes.**  Of some releases, all that are stored being stored as they are, it
removes those that are stored, have ten or more before them, are neither active nor a target and
were created at least 48 hours ago.  It counts them, and touches nothing else.  At least ten
releases stay, or all.  A second time it removes nothing of what is there still, and at a
later time it removes no less. -/
theorem retention_removes_exactly_expired (distinct : rs.Nodup)
    (stored : ∀ x ∈ rs, x.info.isPersisted = true → s.getByKey .releases x.key = some x)
    (now : Nat) :
    (∀ i x, (sortNewestFirst rs)[i]? = some x ↔ x ∈ rs ∧ ahead rs x = i) ∧
    ∃ n s', collectGarbage (sortNewestFirst rs) now s = .ok n s' ∧
      (∀ x ∈ rs, x.info.isPersisted = true → s'.getByKey .releases x.key =
        if 10 ≤ ahead rs x ∧ x.info.createdAt + 48 * 60 * 60 ≤ now ∧
          x.spec.role ≠ .active ∧ x.spec.role ≠ .target then none else some x) ∧
      (∀ key, (∀ x ∈ rs, x.info.isPersisted = true → x.key ≠ key) →
        s'.getByKey .releases key = s.getByKey .releases key) ∧
      (∀ k, k ≠ .releases → Agrees k s s') ∧
      n + (remaining s' rs).length = rs.length ∧ min 10 rs.length ≤ (remaining s' rs).length ∧
      (∀ again : List Release, again.Sublist (remaining s' rs) →
        collectGarbage (sortNewestFirst again) now s' = .ok 0 s') ∧
      ∀ later, now ≤ later → ∃ n' s'', collectGarbage (sortNewestFirst rs) later s = .ok n' s'' ∧
        ∀ key, s'.getByKey .releases key = none → s''.getByKey .releases key = none := by
  refine ⟨fun i x => getElem?_sortNewestFirst_iff distinct, ?_⟩
  obtain ⟨n, s', done, counted, after⟩ := ends_retention distinct stored now
  have total := length_remaining distinct stored after
  have few := length_expired_le (sortNewestFirst rs) now
  rw [show (sortNewestFirst rs).length = rs.length from List.length_mergeSort ..,
    show kept = 10 from rfl] at few
  refine ⟨n, s', done, fun x inside seen => ?_, fun key foreign => ?_, fun k ne => ?_,
    counted ▸ total, by omega, fun again fewer => ?_, fun later le => ?_⟩
  · have age : minAge ≤ now - x.info.createdAt ↔ x.info.createdAt + 48 * 60 * 60 ≤ now := by
      unfold minAge
      omega
    have expires : isExpired now x = true ↔ x.info.createdAt + 48 * 60 * 60 ≤ now ∧
        x.spec.role ≠ .active ∧ x.spec.role ≠ .target := by
      rw [isExpired_iff, and_iff_right seen, age]
    rw [getByKey_retained distinct stored after inside seen]
    exact if_congr (and_congr_right fun _ => expires) rfl rfl
  · rw [after, getByKey_strip, keysOf_placesOf, if_neg]
    intro member
    obtain ⟨x, old, same⟩ := List.mem_map.1 member
    obtain ⟨inside, -, expires⟩ := (mem_expired_sorted_iff distinct).1 old
    exact foreign x inside (isExpired_iff.1 expires).1 same
  · rw [after]
    exact agrees_strip ne s _
  · exact collectGarbage_of_none (expired_remaining distinct stored after fewer)
  · obtain ⟨n', s'', done', -, after'⟩ := ends_retention distinct stored later
    refine ⟨n', s'', done', fun key free => ?_⟩
    have still : ∀ key ∈ (expired (sortNewestFirst rs) now).map (·.key),
        key ∈ (expired (sortNewestFirst rs) later).map (·.key) := by
      intro key member
      obtain ⟨x, old, rfl⟩ := List.mem_map.1 member
      obtain ⟨inside, beyond, expires⟩ := (mem_expired_sorted_iff distinct).1 old
      exact List.mem_map_of_mem ((mem_expired_sorted_iff distinct).2
        ⟨inside, beyond, isExpired_later le expires⟩)
    rw [after, getByKey_strip, keysOf_placesOf] at free
    rw [after', getByKey_strip, keysOf_placesOf]
    split at free
    · rename_i gone
      rw [if_pos (still key gone)]
    · rw [free, ite_self]

namespace Sample

open Cutover.Sample

/-- Twelve releases, of which two at a time were created in one second, the oldest being active. -/
def aged : List Release := (List.range 12).map fun i =>
  release ("web-" ++ toString i) (i / 2) (if i = 0 then .active else .none) 0 0

def holdingAged : Store := aged.foldl (fun s r => s.commit r ∅ .created) (Store.empty 0)

theorem distinct_aged : aged.Nodup := by decide +kernel

theorem stored_aged : ∀ x ∈ aged, x.info.isPersisted = true →
    holdingAged.getByKey .releases x.key = some x := by decide +kernel

/-- Of the two oldest releases the one that is not active goes. -/
theorem oldest_idle_release_removed : aged.Nodup ∧
    (∀ x ∈ aged, x.info.isPersisted = true → holdingAged.getByKey .releases x.key = some x) ∧
    ∃ n s', collectGarbage (sortNewestFirst aged) 172800 holdingAged = .ok n s' ∧
      s'.getByKey .releases "prod/web-1" = none ∧
      (s'.getByKey .releases "prod/web-0").isSome = true ∧
      (s'.getByKey .releases "prod/web-2").isSome = true := by
  refine ⟨distinct_aged, stored_aged, ?_⟩
  obtain ⟨-, n, s', done, each, -⟩ :=
    retention_removes_exactly_expired distinct_aged stored_aged 172800
  have left (i : Nat) (lt : i < 12) := each _ (List.mem_map_of_mem (List.mem_range.2 lt)) rfl
  refine ⟨n, s', done, ?_, ?_, ?_⟩
  · exact (left 1 (by decide)).trans (by decide +kernel)
  · exact (congrArg _ (left 0 (by decide))).trans (by decide +kernel)
  · exact (congrArg _ (left 2 (by decide))).trans (by decide +kernel)

end Sample

end Cutover.Release
