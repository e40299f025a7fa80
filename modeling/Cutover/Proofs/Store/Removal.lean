/-
# Cutover.Proofs.Store.Removal -- what deletions take away

`strip` deletes some objects of a kind one after the other.  It takes away what stands under their
keys and nothing else (`getByKey_strip`, `agrees_strip`).

The entries that go with an object are texts, and a text may be the entry of another object as
well; then this one is lost to all queries.  An index is therefore `Consistent` if it mirrors the
labels and no two objects share an entry, which is so wherever no key has the separator
(`Mirrored.consistent`), whatever the labels are.  Deletions keep an index consistent
(`Consistent.strip`).
-/
import Cutover.Proofs.Store.Feed

namespace Cutover

set_option autoImplicit false

namespace Mark

variable {m n : Mark}

theorem kind_eq_of_entry_eq (same : m.entry = n.entry) : m.kind = n.kind := by
  have lists : (Index.entry m.kind m.label m.value m.key).toList =
    (Index.entry n.kind n.label n.value n.key).toList := congrArg String.toList same
  rw [Index.toList_entry, Index.toList_entry] at lists
  exact Index.kind_eq_of_name_eq (Index.append_cons_cancel (Index.separator_not_mem_name _)
    (Index.separator_not_mem_name _) lists).1

/-- A key without the separator is what follows the last one. -/
theorem key_eq_of_entry_eq (free : '\x1f' ∉ m.key.toList) (free' : '\x1f' ∉ n.key.toList)
    (same : m.entry = n.entry) : m.key = n.key := by
  have lists : (Index.entry m.kind m.label m.value m.key).toList =
    (Index.entry n.kind n.label n.value n.key).toList := congrArg String.toList same
  rw [Index.toList_entry, Index.toList_entry, kind_eq_of_entry_eq same] at lists
  have tails := (Index.append_cons_cancel (Index.separator_not_mem_name _)
    (Index.separator_not_mem_name _) lists).2
  have backwards := congrArg List.reverse tails
  simp only [List.reverse_append, List.reverse_cons, List.append_assoc, List.cons_append,
    List.nil_append] at backwards
  have keys := (Index.append_cons_cancel (mt List.mem_reverse.1 free) (mt List.mem_reverse.1 free')
    backwards).1
  exact String.toList_inj.1 (List.reverse_injective keys)

end Mark

namespace Store

variable {j k : Kind} {s : Store}

/-! ## Consistent indexes -/

/-- The index holds the entries of the labels of stored objects and nothing else, and no entry is
that of two objects. -/
structure Consistent (s : Store) : Prop where
  mirrored : s.Mirrored
  apart : ∀ m n, s.Bears m → s.Bears n → m.entry = n.entry → m.key = n.key

theorem Mirrored.consistent (mirrored : s.Mirrored)
    (free : ∀ m, s.Bears m → '\x1f' ∉ m.key.toList) : s.Consistent :=
  ⟨mirrored, fun m n bears bears' => Mark.key_eq_of_entry_eq (free m bears) (free n bears')⟩

/-- With an object go its own entries. -/
theorem Consistent.delete (consistent : s.Consistent) (k : Kind) (ns name : String) :
    (s.delete k ns name).2.Consistent := by
  cases found : s.getByKey k (objectKey ns name) with
  | none =>
      unfold Store.delete
      simpa only [found] using consistent
  | some current =>
      have relabels := relabels_delete found
      have gone {m : Mark} (bears : (s.delete k ns name).2.Bears m) :
          ¬ (m.kind = k ∧ m.key = objectKey ns name) := by
        obtain ⟨kind, label, value, key⟩ := m
        rintro ⟨rfl, rfl⟩
        cases (relabels.is label value).1 bears
      have before {m : Mark} (bears : (s.delete k ns name).2.Bears m) : s.Bears m :=
        (relabels.others m (gone bears)).1 bears
      refine ⟨fun text => ?_, fun m n bears bears' => consistent.apart m n (before bears)
        (before bears')⟩
      rw [relabels.index, Index.mem_keys_relabel]
      constructor
      · rintro (came | ⟨stays, present⟩)
        · obtain ⟨label, value, has, -⟩ := Index.mem_entriesBeyond.1 came
          cases has
        · obtain ⟨m, bears, rfl⟩ := (consistent.mirrored text).1 present
          refine ⟨m, (relabels.others m fun here => stays ?_).2 bears, rfl⟩
          obtain ⟨kind, label, value, key⟩ := m
          obtain ⟨rfl, rfl⟩ := here
          exact Index.mem_entriesBeyond.2
            ⟨label, value, (relabels.was label value).1 bears, by simp, rfl⟩
      · rintro ⟨m, bears, rfl⟩
        refine .inr ⟨fun dropped => ?_, (consistent.mirrored _).2 ⟨m, before bears, rfl⟩⟩
        obtain ⟨label, value, has, -, same⟩ := Index.mem_entriesBeyond.1 dropped
        let own : Mark := ⟨k, label, value, objectKey ns name⟩
        have shared : m.entry = own.entry := same
        exact gone bears ⟨Mark.kind_eq_of_entry_eq shared, consistent.apart m own (before bears)
          ((relabels.was label value).2 has) shared⟩

/-- Texts that are no entries of an object stay when it goes. -/
theorem mem_keys_delete {ns name text : String}
    (foreign : ∀ label value, text ≠ Index.entry k label value (objectKey ns name)) :
    text ∈ (s.delete k ns name).2.index.keys ↔ text ∈ s.index.keys := by
  cases found : s.getByKey k (objectKey ns name) with
  | none =>
      unfold Store.delete
      simp only [found]
  | some current =>
      rw [index_delete_of_some found]
      exact mem_keys_relabel_elsewhere foreign

theorem delete_of_free {ns name : String} (free : s.getByKey k (objectKey ns name) = none) :
    s.delete k ns name = (false, s) := by
  unfold Store.delete
  simp only [free]

/-! ## Several deletions -/

/-- The store without the objects of a kind at some places, each a namespace and a name. -/
def strip (s : Store) (k : Kind) (places : List (String × String)) : Store :=
  places.foldl (fun s place => (s.delete k place.1 place.2).2) s

/-- The keys of some places. -/
def keysOf (places : List (String × String)) : List String :=
  places.map fun place => objectKey place.1 place.2

theorem getByKey_strip (s : Store) (places : List (String × String)) (key : String) :
    (s.strip k places).getByKey k key =
      if key ∈ keysOf places then none else s.getByKey k key := by
  induction places generalizing s with
  | nil => rfl
  | cons place places ih =>
      rw [strip, List.foldl_cons, ← strip, ih, getByKey_delete, keysOf, keysOf, List.map_cons]
      by_cases here : key = objectKey place.1 place.2
      · rw [if_pos here, ite_self, if_pos (here ▸ List.mem_cons_self)]
      · simp only [List.mem_cons, here, false_or, if_false]

/-- What single deletions keep is kept. -/
theorem strip_induction {inv : Store → Prop}
    (kept : ∀ s ns name, inv s → inv (Store.delete s k ns name).2) (start : inv s)
    (places : List (String × String)) : inv (s.strip k places) := by
  induction places generalizing s with
  | nil => exact start
  | cons place places ih => exact ih (kept s _ _ start)

theorem agrees_strip (ne : j ≠ k) (s : Store) (places : List (String × String)) :
    Agrees j s (s.strip k places) :=
  strip_induction (fun t ns name agrees => agrees.trans (agrees_delete ne t ns name))
    (Agrees.refl j s) places

theorem Sound.strip (sound : s.Sound) (k : Kind) (places : List (String × String)) :
    (s.strip k places).Sound :=
  strip_induction (fun _ ns name sound => sound.delete k ns name) sound places

theorem Consistent.strip (consistent : s.Consistent) (k : Kind)
    (places : List (String × String)) : (s.strip k places).Consistent :=
  strip_induction (fun _ ns name consistent => consistent.delete k ns name) consistent places

theorem mem_keys_strip {places : List (String × String)} {text : String}
    (foreign : ∀ key ∈ keysOf places, ∀ label value, text ≠ Index.entry k label value key) :
    text ∈ (s.strip k places).index.keys ↔ text ∈ s.index.keys := by
  induction places generalizing s with
  | nil => exact Iff.rfl
  | cons place places ih =>
      obtain ⟨here, there⟩ := List.forall_mem_cons.1 foreign
      exact (ih there).trans (mem_keys_delete here)

end Store

namespace Pass

variable {ε α β : Type} {k : Kind} {s : Store} {place : α → String × String}
  {inv : Store → Prop} {xs : List α}

/-- A program that deletes what is at some places, one after the other, leaves the store without
it. -/
theorem ends_mapM_strip {part : α → Pass ε β}
    (kept : ∀ s ns name, inv s → inv (Store.delete s k ns name).2)
    (each : ∀ x ∈ xs, ∀ s, inv s →
      Ends (part x) s fun _ s' => s' = (s.delete k (place x).1 (place x).2).2) (start : inv s) :
    Ends (xs.mapM part) s fun _ s' => s' = s.strip k (xs.map place) := by
  induction xs generalizing s with
  | nil => exact ends_pure rfl
  | cons x xs ih =>
      obtain ⟨here, there⟩ := List.forall_mem_cons.1 each
      rw [List.mapM_cons]
      refine (here s start).bind ?_
      rintro y _ rfl
      exact (ih there (kept s _ _ start)).bind fun _ _ same => ends_pure same

theorem ends_forM_strip {part : α → Pass ε Unit}
    (each : ∀ x s, Ends (part x) s fun _ s' => s' = (s.delete k (place x).1 (place x).2).2)
    (xs : List α) : Ends (xs.forM part) s fun _ s' => s' = s.strip k (xs.map place) := by
  induction xs generalizing s with
  | nil => exact ends_pure rfl
  | cons x xs ih =>
      refine (each x s).bind ?_
      rintro _ _ rfl
      exact ih

end Pass
end Cutover
