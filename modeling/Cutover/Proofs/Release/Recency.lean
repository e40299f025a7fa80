/-
# Cutover.Proofs.Release.Recency -- recency as an order

Recency compares three values one after the other (`Precedes`), so it is a total preorder
(`recency_eq`), and releases of different names are never of the same recency
(`isNewer_or_name_eq`).  The candidate is the first of the newest releases that may be given
traffic (`firstDeployable_eq_some_iff`), so it is older than none of them
(`not_isNewer_firstDeployable`).  A list that falls in recency is what its members are sorted to
(`sortNewestFirst_eq`), and a release that is newer than all others comes first when they are
sorted (`head_sortNewestFirst`).
-/
import Cutover.Proofs.Ramp.Step
import Mathlib.Data.List.Nodup
import Mathlib.Data.List.Pairwise

namespace Cutover.Release

set_option autoImplicit false

/-! ## The order -/

theorem recency_swap (a b : Release) : (recency a b).swap = recency b a := by
  unfold recency
  rw [Ordering.swap_then, Ordering.swap_then, ← Std.OrientedCmp.eq_swap,
    ← Std.OrientedCmp.eq_swap, ← Std.OrientedCmp.eq_swap]

theorem recency_eq : recency = compareLex (compareOn (·.info.isPersisted.toNat))
    (compareLex (fun a b => compareOn (·.info.createdAt) b a)
      fun a b => compareOn (·.info.name) b a) := rfl

instance : Std.TransCmp recency := by
  rw [recency_eq]
  infer_instance

theorem isNewer_eq_false_iff (a b : Release) : isNewer a b = false ↔ (recency b a).isLE := by
  unfold isNewer
  rw [← recency_swap a b]
  cases recency a b <;> decide

/-- Of two releases with different names one is newer. -/
theorem isNewer_or_name_eq {a b : Release} (notNewer : isNewer a b = false) :
    isNewer b a = true ∨ a.name = b.name := by
  rw [isNewer_eq_false_iff] at notNewer
  cases order : recency b a with
  | lt => exact .inl (decide_eq_true order)
  | gt =>
      rw [order] at notNewer
      cases notNewer
  | eq =>
      rw [recency, Ordering.then_eq_eq, Ordering.then_eq_eq] at order
      exact .inr (Std.LawfulEqCmp.eq_of_compare order.2.2)

/-- Of two stored releases the one that was created later is newer. -/
theorem recency_of_createdAt_lt {a b : Release} (accepted : a.info.isPersisted = true)
    (accepted' : b.info.isPersisted = true) (older : b.info.createdAt < a.info.createdAt) :
    recency a b = .lt := by
  unfold recency
  rw [accepted, accepted', Nat.compare_eq_lt.2 older]
  rfl

/-- One release comes before another: one that no store has seen before a stored one, then the
one that was created later, then the one with the greater name. -/
def Precedes (a b : Release) : Prop :=
  a.info.isPersisted = false ∧ b.info.isPersisted = true ∨
    a.info.isPersisted = b.info.isPersisted ∧ (b.info.createdAt < a.info.createdAt ∨
      a.info.createdAt = b.info.createdAt ∧ b.name < a.name)

instance : DecidableRel Precedes := fun _ _ => inferInstanceAs (Decidable (_ ∨ _))

theorem recency_eq_lt_iff {a b : Release} : recency a b = .lt ↔ Precedes a b := by
  have names : compare b.info.name a.info.name = .lt ↔ b.name < a.name := compareOfLessAndEq_eq_lt
  have times : b.info.createdAt = a.info.createdAt ↔ a.info.createdAt = b.info.createdAt := eq_comm
  unfold recency Precedes
  rw [Ordering.then_eq_lt, Ordering.then_eq_lt, Nat.compare_eq_lt, Nat.compare_eq_lt,
    Nat.compare_eq_eq, Nat.compare_eq_eq, names, times]
  cases a.info.isPersisted <;> cases b.info.isPersisted <;> simp

theorem isLE_recency_iff {a b : Release} : (recency a b).isLE = true ↔ ¬ Precedes b a := by
  rw [← recency_eq_lt_iff, ← recency_swap a b]
  cases recency a b <;> decide

theorem not_precedes_self (r : Release) : ¬ Precedes r r :=
  isLE_recency_iff.1 Std.ReflCmp.isLE_rfl

/-! ## The newest of some releases -/

theorem not_isNewer_self (r : Release) : isNewer r r = false := by
  rw [isNewer_eq_false_iff]
  exact Std.ReflCmp.isLE_rfl

theorem not_isNewer_of_isNewer {a b : Release} (newer : isNewer a b = true) :
    isNewer b a = false := by
  have lt : recency a b = .lt := of_decide_eq_true newer
  rw [isNewer_eq_false_iff, lt]
  rfl

/-- None of some releases is newer than one of them, and none that comes before it is as new. -/
def Heads (xs : List (Release × Nat)) (x : Release × Nat) : Prop :=
  ∀ y ∈ xs, isNewer y.1 x.1 = false ∧ (y.2 < x.2 → isNewer x.1 y.1 = true)

variable {xs : List (Release × Nat)} {x : Release × Nat}

theorem heads_newest (rising : xs.Pairwise fun x y => x.2 < y.2) (found : newest xs = some x) :
    Heads xs x := by
  induction xs generalizing x with
  | nil => simp [Heads]
  | cons z rest ih =>
      obtain ⟨before, rising⟩ := List.pairwise_cons.1 rising
      simp only [newest] at found
      cases later : newest rest with
      | none =>
          have empty : rest = [] := by
            by_contra ne
            simpa [later] using newest_isSome ne
          rw [later] at found
          cases found
          simp [Heads, empty, not_isNewer_self]
      | some w =>
          have heads := ih rising later
          simp only [later] at found
          split at found
          · rename_i newer
            cases found
            exact List.forall_mem_cons.2 ⟨⟨not_isNewer_of_isNewer newer, fun _ => newer⟩, heads⟩
          · rename_i notNewer
            cases found
            have le := (isNewer_eq_false_iff _ _).1 (Bool.eq_false_iff.2 notNewer)
            refine List.forall_mem_cons.2 ⟨⟨not_isNewer_self _, fun lt => ?_⟩, fun y member => ?_⟩
            · exact absurd lt (Nat.lt_irrefl _)
            · refine ⟨?_, fun lt => absurd lt (Nat.lt_asymm (before y member))⟩
              rw [isNewer_eq_false_iff]
              exact Std.TransCmp.isLE_trans le ((isNewer_eq_false_iff _ _).1 (heads y member).1)

theorem Heads.le {y : Release × Nat} (heads : Heads xs x) (heads' : Heads xs y) (member : y ∈ xs)
    (member' : x ∈ xs) : x.2 ≤ y.2 := by
  by_contra lt
  have newer := (heads y member).2 (Nat.lt_of_not_le lt)
  rw [(heads' x member').1] at newer
  cases newer

/-- The newest of releases at rising positions is the one that heads them. -/
theorem newest_eq_some_iff (rising : xs.Pairwise fun x y => x.2 < y.2) :
    newest xs = some x ↔ x ∈ xs ∧ Heads xs x := by
  refine ⟨fun found => ⟨newest_mem found, heads_newest rising found⟩, ?_⟩
  rintro ⟨inside, heads⟩
  obtain ⟨y, found⟩ := Option.isSome_iff_exists.1 (newest_isSome (List.ne_nil_of_mem inside))
  have member := newest_mem found
  have heads' := heads_newest rising found
  have distinct : (xs.map (·.2)).Nodup := List.pairwise_map.2 (rising.imp Nat.ne_of_lt)
  have same : y.2 = x.2 :=
    Nat.le_antisymm (heads'.le heads inside member) (heads.le heads' member inside)
  rw [found, List.inj_on_of_nodup_map distinct member inside same]

/-- **The candidate** is the first of the newest releases that may be given traffic. -/
theorem firstDeployable_eq_some_iff {rs : List Release} {c : Nat} :
    firstDeployable rs = some c ↔ ∃ r, rs[c]? = some r ∧ isDeployable r = true ∧
      ∀ i o, rs[i]? = some o → isDeployable o = true →
        isNewer o r = false ∧ (i < c → isNewer r o = true) := by
  have rising : (rs.zipIdx.filter fun x => isDeployable x.1).Pairwise fun x y => x.2 < y.2 := by
    refine List.Pairwise.filter _ (List.pairwise_map.1 ?_)
    rw [List.zipIdx_map_snd]
    exact List.pairwise_lt_range'
  have inside (r : Release) (i : Nat) : (r, i) ∈ rs.zipIdx.filter (fun x => isDeployable x.1) ↔
      rs[i]? = some r ∧ isDeployable r = true := by
    rw [List.mem_filter, List.mem_zipIdx_iff_getElem?]
  unfold firstDeployable
  rw [Option.map_eq_some_iff]
  constructor
  · rintro ⟨⟨r, _⟩, found, rfl⟩
    obtain ⟨member, heads⟩ := (newest_eq_some_iff rising).1 found
    obtain ⟨here, deployable⟩ := (inside r _).1 member
    exact ⟨r, here, deployable, fun i o at_ may => heads (o, i) ((inside o i).2 ⟨at_, may⟩)⟩
  · rintro ⟨r, here, deployable, heads⟩
    refine ⟨(r, c), (newest_eq_some_iff rising).2 ⟨(inside r c).2 ⟨here, deployable⟩, ?_⟩, rfl⟩
    rintro ⟨o, i⟩ member
    obtain ⟨at_, may⟩ := (inside o i).1 member
    exact heads i o at_ may

/-- None that may be given traffic is newer than the candidate. -/
theorem not_isNewer_firstDeployable {rs : List Release} {c : Nat} {r : Release}
    (first : firstDeployable rs = some c) (at_ : rs[c]? = some r) :
    ∀ o ∈ rs, isDeployable o = true → isNewer o r = false := by
  obtain ⟨r', here, -, heads⟩ := firstDeployable_eq_some_iff.1 first
  obtain rfl : r = r' := Option.some.inj (at_.symm.trans here)
  intro o member deployable
  obtain ⟨i, inside⟩ := List.getElem?_of_mem member
  exact (heads i o inside deployable).1

/-! ## Sorting by recency -/

theorem isLE_or_isLE (a b : Release) : ((recency a b).isLE || (recency b a).isLE) = true := by
  rw [← recency_swap a b]
  cases recency a b <;> rfl

theorem sortNewestFirst_eq_mergeSort (rs : List Release) :
    sortNewestFirst rs = rs.mergeSort fun a b => (recency a b).isLE := by
  have le (a b : Release) : (recency a b != .gt) = (recency a b).isLE := by
    cases recency a b <;> rfl
  unfold sortNewestFirst
  simp only [le]

theorem sorted_sortNewestFirst (rs : List Release) :
    (sortNewestFirst rs).Pairwise fun a b => (recency a b).isLE := by
  rw [sortNewestFirst_eq_mergeSort]
  exact List.pairwise_mergeSort (fun _ _ _ => Std.TransCmp.isLE_trans) isLE_or_isLE rs

/-- Of two releases that need not change places the first stays before the second. -/
theorem pair_sublist_sortNewestFirst {rs : List Release} {a b : Release}
    (le : (recency a b).isLE = true) (before : [a, b].Sublist rs) :
    [a, b].Sublist (sortNewestFirst rs) := by
  rw [sortNewestFirst_eq_mergeSort]
  exact List.pair_sublist_mergeSort (fun _ _ _ => Std.TransCmp.isLE_trans) isLE_or_isLE le before

/-- A list that falls in recency is what its members are sorted to. -/
theorem sortNewestFirst_eq {rs sorted : List Release} (perm : rs.Perm sorted)
    (falling : sorted.Pairwise fun a b => recency a b = .lt) : sortNewestFirst rs = sorted := by
  have sorts : (sortNewestFirst rs).Perm sorted := (List.mergeSort_perm ..).trans perm
  have distinct : sorted.Pairwise fun a b => recency a b ≠ .eq :=
    falling.imp fun lt => by simp [lt]
  have symm : Std.Symm fun a b : Release => recency a b ≠ .eq := by
    refine ⟨fun a b ne same => ne ?_⟩
    rwa [← recency_swap, Ordering.swap_eq_eq] at same
  refine sorts.eq_of_pairwise ?_ (sorted_sortNewestFirst rs) (falling.imp fun lt => by simp [lt])
  intro a b inside inside' le le'
  by_contra apart
  exact distinct.forall (sorts.mem_iff.1 inside) inside' apart
    (Std.OrientedCmp.isLE_antisymm le le')

/-- A release that is newer than all others comes first. -/
theorem head_sortNewestFirst {rs : List Release} {r : Release} (inside : r ∈ rs)
    (older : ∀ o ∈ rs, o ≠ r → recency r o = .lt) : (sortNewestFirst rs)[0]? = some r := by
  have perm : (sortNewestFirst rs).Perm rs := List.mergeSort_perm ..
  have sorted := sorted_sortNewestFirst rs
  cases found : sortNewestFirst rs with
  | nil =>
      rw [found] at perm
      rw [List.nil_perm.1 perm] at inside
      cases inside
  | cons first rest =>
      rw [found] at perm sorted
      by_contra ne
      have ne : first ≠ r := fun same => ne (same ▸ rfl)
      have later : r ∈ rest := by
        rcases List.mem_cons.1 (perm.mem_iff.2 inside) with same | later
        · exact absurd same.symm ne
        · exact later
      have le := (List.pairwise_cons.1 sorted).1 r later
      rw [← recency_swap r first, older first (perm.mem_iff.1 List.mem_cons_self) ne] at le
      cases le

end Cutover.Release
