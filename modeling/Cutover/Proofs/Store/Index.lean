/-
# Cutover.Proofs.Store.Index -- what a stem finds

The texts of the label index are in order, so those that start with a stem stand
together, and reading from the first of them to the last finds them all
(`keysUnder_eq`).  After that `keysUnder` is a filter and the order is forgotten.

An update of one kind's entries does not change what a stem of another kind finds
(`keysUnder_relabel_of_ne`).  Within one kind a text may be the entry of two objects,
unless label, value and key of one are free of the separator (`entry_eq_entry`).
-/
import Cutover.Store.Basic
import Mathlib.Data.List.Basic

namespace Cutover.Index

set_option autoImplicit false

variable {index : Index} {start text key : String}

/-! ## Texts that start with a stem -/

theorem afterStem?_eq_some : afterStem? start text = some key ↔ text = start ++ key := by
  unfold afterStem?
  rw [Option.map_eq_some_iff]
  constructor
  · rintro ⟨rest, found, rfl⟩
    apply String.toList_inj.1
    simp [← List.append_eq_of_isPrefixOf?_eq_some found]
  · rintro rfl
    exact ⟨key.toList, by simp, by simp⟩

theorem afterStem?_eq_none : afterStem? start text = none ↔ ∀ key, text ≠ start ++ key := by
  rw [Option.eq_none_iff_forall_ne_some]
  exact forall_congr' fun key => not_congr afterStem?_eq_some

theorem not_append_lt (xs ys : List Char) : ¬ xs ++ ys < xs := by
  induction xs with
  | nil => exact List.not_lt_nil ys
  | cons c xs ih =>
      intro lt
      rcases List.cons_lt_cons_iff.1 lt with below | ⟨-, rest⟩
      · exact Char.lt_irrefl c below
      · exact ih rest

/-- What stands between a list and one that it starts, starts with it. -/
theorem exists_append_of_between {xs ys zs : List Char} (ge : ¬ zs < xs) (lt : zs < xs ++ ys) :
    ∃ rest, zs = xs ++ rest := by
  induction xs generalizing zs with
  | nil => exact ⟨zs, rfl⟩
  | cons c xs ih =>
      cases zs with
      | nil => exact absurd (List.nil_lt_cons c xs) ge
      | cons d zs =>
          rcases List.cons_lt_cons_iff.1 lt with below | ⟨rfl, rest⟩
          · exact absurd (List.cons_lt_cons_iff.2 (.inl below)) ge
          · have ge : ¬ zs < xs := fun h => ge (List.cons_lt_cons_iff.2 (.inr ⟨rfl, h⟩))
            obtain ⟨tail, rfl⟩ := ih ge rest
            exact ⟨tail, rfl⟩

theorem afterStem?_eq_none_of_lt (lt : text < start) : afterStem? start text = none := by
  refine afterStem?_eq_none.2 fun key same => ?_
  rw [same, String.lt_iff, String.toList_append] at lt
  exact not_append_lt _ _ lt

/-- Texts from a stem on that do not start with it come after all that do. -/
theorem afterStem?_eq_none_of_above {first : String} (ge : ¬ first < start)
    (other : afterStem? start first = none) (lt : first < text) : afterStem? start text = none := by
  refine afterStem?_eq_none.2 fun key same => ?_
  rw [same, String.lt_iff, String.toList_append] at lt
  obtain ⟨rest, between⟩ := exists_append_of_between (mt String.lt_iff.2 ge) lt
  refine afterStem?_eq_none.1 other (String.ofList rest) (String.toList_inj.1 ?_)
  simpa using between

/-! ## Reading a stretch of ordered texts -/

theorem takeWhile_eq_filterMap {texts : List String} (ordered : texts.Pairwise (· < ·))
    (ge : ∀ text ∈ texts, ¬ text < start) :
    ((texts.map (afterStem? start)).takeWhile (·.isSome)).filterMap id =
      texts.filterMap (afterStem? start) := by
  induction texts with
  | nil => rfl
  | cons first texts ih =>
      obtain ⟨below, ordered⟩ := List.pairwise_cons.1 ordered
      obtain ⟨here, there⟩ := List.forall_mem_cons.1 ge
      cases found : afterStem? start first with
      | some key =>
          simp only [List.map_cons, found, List.takeWhile_cons, Option.isSome_some, if_true,
            List.filterMap_cons, id, ← ih ordered there]
      | none =>
          have none_ : texts.filterMap (afterStem? start) = [] :=
            List.filterMap_eq_nil_iff.2 fun text member =>
              afterStem?_eq_none_of_above here found (below text member)
          simp [found, none_]

theorem dropWhile_eq_filterMap {texts : List String} (ordered : texts.Pairwise (· < ·)) :
    (((texts.dropWhile (· < start)).map (afterStem? start)).takeWhile (·.isSome)).filterMap id =
      texts.filterMap (afterStem? start) := by
  induction texts with
  | nil => rfl
  | cons first texts ih =>
      obtain ⟨below, rest⟩ := List.pairwise_cons.1 ordered
      by_cases lt : first < start
      · rw [List.dropWhile_cons_of_pos (by simpa using lt), ih rest,
          List.filterMap_cons_none (afterStem?_eq_none_of_lt lt)]
      · rw [List.dropWhile_cons_of_neg (by simpa using lt)]
        refine takeWhile_eq_filterMap ordered (List.forall_mem_cons.2 ⟨lt, fun text member => ?_⟩)
        exact fun lt' => lt (String.lt_trans (below text member) lt')

theorem keys_ordered (index : Index) : index.keys.Pairwise (· < ·) :=
  List.pairwise_map.2 index.ordered

/-- **A stem finds all texts that start with it.** -/
theorem keysUnder_eq (index : Index) (start : String) :
    index.keysUnder start = index.keys.filterMap (afterStem? start) :=
  dropWhile_eq_filterMap index.keys_ordered

theorem mem_keysUnder : key ∈ index.keysUnder start ↔ start ++ key ∈ index.keys := by
  rw [keysUnder_eq, List.mem_filterMap]
  constructor
  · rintro ⟨text, member, found⟩
    rwa [← afterStem?_eq_some.1 found]
  · exact fun member => ⟨_, member, afterStem?_eq_some.2 rfl⟩

theorem nodup_keysUnder (index : Index) (start : String) : (index.keysUnder start).Nodup := by
  rw [keysUnder_eq, List.Nodup, List.pairwise_filterMap]
  refine index.keys_ordered.imp fun lt key found key' found' same => ?_
  rw [afterStem?_eq_some.1 found, afterStem?_eq_some.1 found', same] at lt
  exact String.lt_irrefl _ lt

/-! ## Updates of the index -/

theorem filterMap_put (f : String → Option String) (none : f text = none)
    (entries : List (String × Unit)) :
    ((Dict.put text () entries).map (·.1)).filterMap f = (entries.map (·.1)).filterMap f := by
  induction entries with
  | nil => simp [Dict.put, none]
  | cons entry entries ih =>
      simp only [Dict.put]
      split
      · simp [none]
      · split
        · simp only [List.map_cons, List.filterMap_cons, ih]
        · rename_i ge le
          rw [List.map_cons, List.map_cons, ← Dict.eq_of_not_lt ge le]

theorem keysUnder_insert (other : afterStem? start text = none) :
    keysUnder (index.insert text ()) start = index.keysUnder start := by
  rw [keysUnder_eq, keysUnder_eq]
  exact filterMap_put _ other index.entries

theorem keysUnder_erase (other : afterStem? start text = none) :
    keysUnder (index.erase text) start = index.keysUnder start := by
  have keys : (index.erase text).keys = index.keys.filter (· != text) := by
    show List.map _ (List.filter _ _) = _
    rw [Dict.keys, List.filter_map]
    rfl
  rw [keysUnder_eq, keysUnder_eq, keys, List.filterMap_filter]
  refine List.filterMap_congr fun x _ => ?_
  by_cases same : x = text
  · simp [same, other]
  · simp [same]

theorem keysUnder_foldl_insert {texts : List String}
    (other : ∀ text ∈ texts, afterStem? start text = none) :
    keysUnder (texts.foldl (fun index text => index.insert text ()) index) start =
      index.keysUnder start := by
  induction texts generalizing index with
  | nil => rfl
  | cons text texts ih =>
      obtain ⟨here, there⟩ := List.forall_mem_cons.1 other
      rw [List.foldl_cons, ih there, keysUnder_insert here]

theorem keysUnder_foldl_erase {texts : List String}
    (other : ∀ text ∈ texts, afterStem? start text = none) :
    keysUnder (texts.foldl Dict.erase index) start = index.keysUnder start := by
  induction texts generalizing index with
  | nil => rfl
  | cons text texts ih =>
      obtain ⟨here, there⟩ := List.forall_mem_cons.1 other
      rw [List.foldl_cons, ih there, keysUnder_erase here]

theorem mem_keys : text ∈ index.keys ↔ index.get? text = some () := by
  rw [Dict.get?_eq_some_iff, Dict.keys, List.mem_map]
  constructor
  · rintro ⟨entry, member, rfl⟩
    exact member
  · exact fun member => ⟨_, member, rfl⟩

theorem mem_keys_insert {other : String} :
    text ∈ (Dict.insert index other ()).keys ↔ text = other ∨ text ∈ index.keys := by
  rw [mem_keys, mem_keys, Dict.get?_insert]
  split <;> simp [*]

theorem mem_keys_erase {other : String} :
    text ∈ (Dict.erase index other).keys ↔ text ≠ other ∧ text ∈ index.keys := by
  rw [mem_keys, mem_keys, Dict.get?_erase]
  split <;> simp [*]

theorem mem_keys_foldl_insert {texts : List String} :
    text ∈ (texts.foldl (fun index other => Dict.insert index other ()) index).keys ↔
      text ∈ texts ∨ text ∈ index.keys := by
  induction texts generalizing index with
  | nil => simp
  | cons other texts ih =>
      rw [List.foldl_cons, ih, mem_keys_insert, List.mem_cons]
      exact or_left_comm.trans or_assoc.symm

theorem mem_keys_foldl_erase {texts : List String} :
    text ∈ (texts.foldl Dict.erase index).keys ↔ text ∉ texts ∧ text ∈ index.keys := by
  induction texts generalizing index with
  | nil => simp
  | cons other texts ih =>
      rw [List.foldl_cons, ih, mem_keys_erase, List.mem_cons, not_or]
      exact and_left_comm.trans and_assoc.symm

theorem mem_entriesBeyond {k : Kind} {labels other : Dict String} :
    text ∈ entriesBeyond k key labels other ↔ ∃ label value, labels.get? label = some value ∧
      other.get? label ≠ some value ∧ text = entry k label value key := by
  unfold entriesBeyond
  rw [List.mem_map]
  constructor
  · rintro ⟨⟨label, value⟩, member, rfl⟩
    obtain ⟨member, differs⟩ := List.mem_filter.1 member
    exact ⟨label, value, (Dict.get?_eq_some_iff _).2 member, by simpa using differs, rfl⟩
  · rintro ⟨label, value, has, differs, rfl⟩
    refine ⟨(label, value), List.mem_filter.2 ⟨(Dict.get?_eq_some_iff _).1 has, ?_⟩, rfl⟩
    simpa using differs

/-- What a change of labels leaves in the index. -/
theorem mem_keys_relabel {k : Kind} {before after : Dict String} :
    text ∈ (index.relabel k key before after).keys ↔
      text ∈ entriesBeyond k key after before ∨
        text ∉ entriesBeyond k key before after ∧ text ∈ index.keys := by
  unfold relabel
  rw [mem_keys_foldl_insert, mem_keys_foldl_erase]

theorem relabel_self (index : Index) (k : Kind) (key : String) (labels : Dict String) :
    index.relabel k key labels labels = index := by
  have none_ : entriesBeyond k key labels labels = [] := by
    refine List.eq_nil_iff_forall_not_mem.2 fun text member => ?_
    obtain ⟨label, value, has, differs, -⟩ := mem_entriesBeyond.1 member
    exact differs has
  unfold relabel
  rw [none_]
  rfl

/-! ## Texts of different entries -/

/-- A separator that occurs once splits a text in one way. -/
theorem append_cons_cancel {α : Type} {c : α} {xs ys xs' ys' : List α} (free : c ∉ xs)
    (free' : c ∉ xs') (same : xs ++ c :: ys = xs' ++ c :: ys') : xs = xs' ∧ ys = ys' := by
  induction xs generalizing xs' with
  | nil =>
      cases xs' with
      | nil => exact ⟨rfl, (List.cons.inj same).2⟩
      | cons d xs' =>
          obtain ⟨rfl, -⟩ := List.cons.inj same
          exact absurd List.mem_cons_self free'
  | cons d xs ih =>
      cases xs' with
      | nil =>
          obtain ⟨rfl, -⟩ := List.cons.inj same
          exact absurd List.mem_cons_self free
      | cons d' xs' =>
          obtain ⟨rfl, tails⟩ := List.cons.inj same
          rw [List.mem_cons, not_or] at free free'
          obtain ⟨rfl, rest⟩ := ih free.2 free'.2 tails
          exact ⟨rfl, rest⟩

theorem toList_separator : separator.toList = ['\x1f'] := rfl

theorem separator_not_mem_name (k : Kind) : '\x1f' ∉ k.name.toList := by
  cases k <;> decide

theorem toList_stem (k : Kind) (label value : String) : (stem k label value).toList =
    k.name.toList ++ '\x1f' :: ((label.toList ++ '=' :: value.toList) ++ ['\x1f']) := by
  simp [stem, toList_separator]

theorem toList_entry (k : Kind) (label value key : String) : (entry k label value key).toList =
    k.name.toList ++ '\x1f' ::
      ((label.toList ++ '=' :: value.toList) ++ '\x1f' :: key.toList) := by
  simp [entry, toList_stem]

theorem kind_eq_of_name_eq {j k : Kind} (same : j.name.toList = k.name.toList) : j = k := by
  cases j <;> cases k <;> first | rfl | exact absurd same (by decide)

/-- The entries of one kind do not start with the stems of another. -/
theorem afterStem?_entry_of_ne {j k : Kind} (ne : j ≠ k) (label value label' value' key : String) :
    afterStem? (stem j label value) (entry k label' value' key) = none := by
  refine afterStem?_eq_none.2 fun rest same => ne (kind_eq_of_name_eq ?_)
  have lists : _ = (stem j label value ++ rest).toList := congrArg String.toList same
  simp only [toList_entry, String.toList_append, toList_stem, List.append_assoc,
    List.cons_append] at lists
  exact (append_cons_cancel (separator_not_mem_name k) (separator_not_mem_name j) lists).1.symm

theorem keysUnder_relabel_of_ne {j k : Kind} (ne : j ≠ k) (index : Index) (key : String)
    (before after : Dict String) (label value : String) :
    (index.relabel k key before after).keysUnder (stem j label value) =
      index.keysUnder (stem j label value) := by
  have foreign (labels other : Dict String) :
      ∀ text ∈ entriesBeyond k key labels other, afterStem? (stem j label value) text = none := by
    intro text member
    obtain ⟨label', value', -, -, rfl⟩ := mem_entriesBeyond.1 member
    exact afterStem?_entry_of_ne ne ..
  unfold relabel
  rw [keysUnder_foldl_insert (foreign after before), keysUnder_foldl_erase (foreign before after)]

/-- An entry whose label, value and key are without the separator is that of no other key,
and of no label and value but those that run together to the same text. -/
theorem entry_eq_entry {k : Kind} {label value key label' value' key' : String}
    (label_free : '\x1f' ∉ label.toList) (value_free : '\x1f' ∉ value.toList)
    (key_free : '\x1f' ∉ key.toList)
    (same : entry k label' value' key' = entry k label value key) :
    label'.toList ++ '=' :: value'.toList = label.toList ++ '=' :: value.toList ∧ key' = key := by
  have lists := congrArg String.toList same
  rw [toList_entry, toList_entry] at lists
  have tails := (append_cons_cancel (separator_not_mem_name k) (separator_not_mem_name k) lists).2
  have free : '\x1f' ∉ label.toList ++ '=' :: value.toList := by simp [label_free, value_free]
  have once : List.count '\x1f' ((label.toList ++ '=' :: value.toList) ++ '\x1f' :: key.toList) =
      1 := by
    rw [List.count_append, List.count_cons_self, List.count_eq_zero.2 free,
      List.count_eq_zero.2 key_free]
  rw [← tails, List.count_append, List.count_cons_self] at once
  have free' : '\x1f' ∉ label'.toList ++ '=' :: value'.toList := List.count_eq_zero.1 (by omega)
  obtain ⟨heads, keys⟩ := append_cons_cancel free' free tails
  exact ⟨heads, String.toList_inj.1 keys⟩

end Cutover.Index
