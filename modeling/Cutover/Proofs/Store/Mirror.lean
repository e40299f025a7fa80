/-
# Cutover.Proofs.Store.Mirror -- the label index mirrors the labels

A `Mark` is a label of a stored object: the object's kind and key, the label's name and value.
In a store whose texts are plain, without the characters that entries are put together with, the
entry of a mark is that of no other (`Mark.eq_of_entry_eq`), so a change of one object's labels
can drop and add entries of that object only.  Hence the index holds the entries of the
marks and nothing else (`Mirrored`), whatever the store is asked (`Mirrored.next`).

The entries behind one stem stand in the order of their keys, so a query by the index finds the
objects of a scan, and in the same order (`matching_eq_scan`).
-/
import Cutover.Proofs.Store.Request
import Cutover.Proofs.Store.Scan
import Mathlib.Data.List.Infix

namespace Cutover

set_option autoImplicit false

/-! ## Order behind a stem -/

namespace Index

theorem append_lt_append_iff {start a b : List Char} : start ++ a < start ++ b ↔ a < b := by
  induction start with
  | nil => exact Iff.rfl
  | cons c start ih => simp [ih]

theorem keysUnder_ordered (index : Index) (start : String) :
    (index.keysUnder start).Pairwise (· < ·) := by
  rw [keysUnder_eq, List.pairwise_filterMap]
  refine index.keys_ordered.imp fun lt key found key' found' => ?_
  rw [afterStem?_eq_some.1 found, afterStem?_eq_some.1 found', String.lt_iff,
    String.toList_append, String.toList_append] at lt
  exact String.lt_iff.2 (append_lt_append_iff.1 lt)

end Index

/-! ## Marks -/

/-- A label of an object. -/
structure Mark where
  kind : Kind
  label : String
  value : String
  key : String
  deriving DecidableEq

namespace Mark

def entry (m : Mark) : String := Index.entry m.kind m.label m.value m.key

/-- The texts of a mark are without the characters that its entry is put together with. -/
structure Plain (m : Mark) : Prop where
  label : '=' ∉ m.label.toList ∧ '\x1f' ∉ m.label.toList
  value : '\x1f' ∉ m.value.toList
  key : '\x1f' ∉ m.key.toList

theorem eq_of_entry_eq {m n : Mark} (plain : m.Plain) (plain' : n.Plain)
    (same : m.entry = n.entry) : m = n := by
  obtain ⟨kind, label, value, key⟩ := m
  obtain ⟨kind', label', value', key'⟩ := n
  have lists : (Index.entry kind label value key).toList =
    (Index.entry kind' label' value' key').toList := congrArg String.toList same
  rw [Index.toList_entry, Index.toList_entry] at lists
  obtain rfl : kind = kind' := Index.kind_eq_of_name_eq
    (Index.append_cons_cancel (Index.separator_not_mem_name _) (Index.separator_not_mem_name _)
      lists).1
  obtain ⟨heads, rfl⟩ := Index.entry_eq_entry plain'.label.2 plain'.value plain'.key same
  obtain ⟨labels, values⟩ := Index.append_cons_cancel plain.label.1 plain'.label.1 heads
  obtain rfl := String.toList_inj.1 labels
  obtain rfl := String.toList_inj.1 values
  rfl

end Mark

namespace Store

variable {k : Kind} {s s' : Store}

/-- The mark is a label of the object under its key. -/
def Bears (s : Store) (m : Mark) : Prop :=
  ∃ o : Object m.kind, s.getByKey m.kind m.key = some o ∧ o.label? m.label = some m.value

/-- No name of a label has an equals sign, and no name or value of a label and no key has the
separator. -/
def Plain (s : Store) : Prop := ∀ m, s.Bears m → m.Plain

/-- The index holds the entries of the marks and nothing else. -/
def Mirrored (s : Store) : Prop := ∀ text, text ∈ s.index.keys ↔ ∃ m, s.Bears m ∧ m.entry = text

theorem bears_of_some {key label value : String} {o : Object k}
    (found : s.getByKey k key = some o) :
    s.Bears ⟨k, label, value, key⟩ ↔ o.info.labels.get? label = some value := by
  constructor
  · rintro ⟨x, found', has⟩
    obtain rfl := Option.some.inj (found.symm.trans found')
    exact has
  · exact fun has => ⟨o, found, has⟩

theorem not_bears_of_none {key label value : String} (free : s.getByKey k key = none) :
    ¬ s.Bears ⟨k, label, value, key⟩ := by
  rintro ⟨x, found, -⟩
  cases free.symm.trans found

theorem bears_congr {m : Mark} (same : s'.getByKey m.kind m.key = s.getByKey m.kind m.key) :
    s'.Bears m ↔ s.Bears m := by
  unfold Bears
  rw [same]

/-! ## A change of one object's labels -/

/-- The labels under one key have become others, the index has followed, and all other labels
are as they were. -/
structure Relabels (s s' : Store) (k : Kind) (key : String) (before after : Dict String) :
    Prop where
  index : s'.index = s.index.relabel k key before after
  was : ∀ label value, s.Bears ⟨k, label, value, key⟩ ↔ before.get? label = some value
  is : ∀ label value, s'.Bears ⟨k, label, value, key⟩ ↔ after.get? label = some value
  others : ∀ m : Mark, ¬ (m.kind = k ∧ m.key = key) → (s'.Bears m ↔ s.Bears m)

/-- The dropped entries are those of the labels that went.  That of any other mark is kept,
since it is not the text of one of them. -/
theorem Relabels.mirrored {key : String} {before after : Dict String}
    (relabels : Relabels s s' k key before after) (plain : s.Plain) (mirrored : s.Mirrored) :
    s'.Mirrored := by
  intro text
  rw [relabels.index, Index.mem_keys_relabel]
  constructor
  · rintro (came | ⟨stays, present⟩)
    · obtain ⟨label, value, has, -, rfl⟩ := Index.mem_entriesBeyond.1 came
      exact ⟨⟨k, label, value, key⟩, (relabels.is label value).2 has, rfl⟩
    · obtain ⟨m, bears, rfl⟩ := (mirrored text).1 present
      refine ⟨m, ?_, rfl⟩
      by_cases here : m.kind = k ∧ m.key = key
      · obtain ⟨kind, label, value, key'⟩ := m
        obtain ⟨rfl, rfl⟩ := here
        refine (relabels.is label value).2 (Classical.byContradiction fun went => stays ?_)
        exact Index.mem_entriesBeyond.2
          ⟨label, value, (relabels.was label value).1 bears, went, rfl⟩
      · exact (relabels.others m here).2 bears
  · rintro ⟨m, bears', rfl⟩
    -- A mark of both stores keeps its entry: it is none of those that are dropped.
    have stays (bears : s.Bears m) : m.entry ∉ Index.entriesBeyond k key before after := by
      intro went
      obtain ⟨label, value, had, lost, same⟩ := Index.mem_entriesBeyond.1 went
      have lost_bears : s.Bears ⟨k, label, value, key⟩ := (relabels.was label value).2 had
      obtain rfl := Mark.eq_of_entry_eq (n := ⟨k, label, value, key⟩) (plain m bears)
        (plain _ lost_bears) same
      exact lost ((relabels.is label value).1 bears')
    by_cases bears : s.Bears m
    · exact .inr ⟨stays bears, (mirrored _).2 ⟨m, bears, rfl⟩⟩
    · have here : m.kind = k ∧ m.key = key :=
        Classical.byContradiction fun there => bears ((relabels.others m there).1 bears')
      obtain ⟨kind, label, value, key'⟩ := m
      obtain ⟨rfl, rfl⟩ := here
      have has := (relabels.is label value).1 bears'
      have hadNot : before.get? label ≠ some value :=
        fun had => bears ((relabels.was label value).2 had)
      exact .inl (Index.mem_entriesBeyond.2 ⟨label, value, has, hadNot, rfl⟩)

theorem relabels_commit {o : Object k} {before : Dict String}
    (was : ∀ label value, s.Bears ⟨k, label, value, o.key⟩ ↔ before.get? label = some value)
    (change : Change) :
    Relabels s (s.commit o before change) k o.key before o.info.labels where
  index := rfl
  was := was
  is label value := bears_of_some (getByKey_commit_self s o before change)
  others m there := by
    refine bears_congr ?_
    obtain ⟨kind, label, value, key⟩ := m
    by_cases same : kind = k
    · subst same
      exact getByKey_commit_of_ne s o before change fun e => there ⟨rfl, e⟩
    · exact (agrees_commit same s o before change).getByKey key

theorem relabels_delete {ns name : String} {current : Object k}
    (found : s.getByKey k (objectKey ns name) = some current) :
    Relabels s (s.delete k ns name).2 k (objectKey ns name) current.info.labels ∅ where
  index := index_delete_of_some found
  was label value := bears_of_some found
  is label value := by
    have gone : (s.delete k ns name).2.getByKey k (objectKey ns name) = none := by
      rw [getByKey_delete, if_pos rfl]
    exact iff_of_false (not_bears_of_none gone) (by simp)
  others m there := by
    refine bears_congr ?_
    obtain ⟨kind, label, value, key⟩ := m
    by_cases same : kind = k
    · subst same
      rw [getByKey_delete, if_neg fun e => there ⟨rfl, e⟩]
    · exact (agrees_delete same s ns name).getByKey key

/-- **One step.**  Whatever becomes of a mirrored store, it is mirrored again. -/
theorem Mirrored.next (mirrored : s.Mirrored) (sound : s.Sound) (plain : s.Plain)
    (next : s.Next s') : s'.Mirrored := by
  cases next with
  | same => exact mirrored
  | later clock => exact mirrored
  | @created k o free =>
      have was (label value : String) : s.Bears ⟨k, label, value, (s.accepted o).key⟩ ↔
          (∅ : Dict String).get? label = some value :=
        iff_of_false (not_bears_of_none free) (by simp)
      exact (relabels_commit was .created).mirrored plain mirrored
  | @respecified k key current found o =>
      obtain rfl := sound.keyed k key current found
      have was (label value : String) : s.Bears ⟨k, label, value, current.key⟩ ↔
          current.info.labels.get? label = some value := bears_of_some found
      exact (relabels_commit (o := respecified current o) was .specUpdated).mirrored plain mirrored
  | @restated k key current found status =>
      obtain rfl := sound.keyed k key current found
      have was (label value : String) : s.Bears ⟨k, label, value, current.key⟩ ↔
          current.info.labels.get? label = some value := bears_of_some found
      exact (relabels_commit (o := restated current status) was .statusUpdated).mirrored plain
        mirrored
  | deleted found => exact (relabels_delete found).mirrored plain mirrored

theorem mirrored_empty (clock : Nat) : (Store.empty clock).Mirrored := by
  intro text
  refine iff_of_false List.not_mem_nil ?_
  rintro ⟨⟨kind, label, value, key⟩, ⟨o, found, -⟩, -⟩
  cases kind <;> cases found

theorem Mirrored.after (mirrored : s.Mirrored) (sound : s.Sound) {rs : List Request}
    (plain : ∀ before, before <+: rs → (s.after before).Plain) : (s.after rs).Mirrored := by
  induction rs generalizing s with
  | nil => exact mirrored
  | cons r rest ih =>
      have next := next_serve s r
      have plain_now : s.Plain := plain [] List.nil_prefix
      refine ih (mirrored.next sound plain_now next) (sound.next next) fun before start => ?_
      exact plain (r :: before) (List.cons_prefix_cons.2 ⟨rfl, start⟩)

/-! ## Queries -/

theorem Mirrored.indexed (mirrored : s.Mirrored) : s.Indexed := by
  intro k key o found label value has
  exact (mirrored _).2 ⟨⟨k, label, value, key⟩, ⟨o, found, has⟩, rfl⟩

theorem list_ordered (sound : s.Sound) (k : Kind) : (s.list k).Pairwise (·.key < ·.key) := by
  unfold list Dict.values
  rw [List.pairwise_map]
  refine (s.tables.get k).ordered.imp_of_mem fun {a b} inside inside' lt => ?_
  have key := sound.keyed k a.1 a.2 ((Dict.get?_eq_some_iff _).2 inside)
  have key' := sound.keyed k b.1 b.2 ((Dict.get?_eq_some_iff _).2 inside')
  rwa [key, key']

theorem matching_ordered (sound : s.Sound) (k : Kind) (query : Selector) :
    (s.matching k query).Pairwise (·.key < ·.key) := by
  unfold matching
  split
  · exact list_ordered sound k
  · rw [List.pairwise_filterMap]
    refine (Index.keysUnder_ordered s.index _).imp fun lt o found o' found' => ?_
    have key := sound.keyed k _ o (Option.filter_eq_some_iff.1 found).1
    have key' := sound.keyed k _ o' (Option.filter_eq_some_iff.1 found').1
    rwa [key, key']

/-- Ordered lists of objects are equal if they have the same members. -/
theorem eq_of_ordered {xs ys : List (Object k)} (ordered : xs.Pairwise (·.key < ·.key))
    (ordered' : ys.Pairwise (·.key < ·.key)) (same : ∀ o, o ∈ xs ↔ o ∈ ys) : xs = ys := by
  have distinct {zs : List (Object k)} (lt : zs.Pairwise (·.key < ·.key)) :
      (zs.map (·.key)).Nodup := by
    refine (List.pairwise_map.2 lt).imp ?_
    rintro key _ lt rfl
    exact String.lt_irrefl _ lt
  refine (perm_of_nodup_keys (distinct ordered) (distinct ordered') same).eq_of_pairwise ?_ ordered
    ordered'
  intro a b _ _ lt gt
  exact absurd (String.lt_trans lt gt) (String.lt_irrefl _)

/-- A query by the index answers with the objects of a scan, in the order of their keys. -/
theorem matching_eq_scan (sound : s.Sound) (indexed : s.Indexed) (k : Kind) (query : Selector) :
    s.matching k query = s.scan k query := by
  have ordered := matching_ordered sound k query
  have ordered' : (s.scan k query).Pairwise (·.key < ·.key) := (list_ordered sound k).filter _
  have members (o : Object k) : o ∈ s.matching k query ↔ o ∈ s.scan k query := by
    cases first : query.terms.entries with
    | nil =>
        have all : s.scan k query = s.list k :=
          List.filter_eq_self.2 fun o _ => by simp [Selector.accepts, first]
        rw [all]
        unfold matching
        rw [first]
    | cons term rest =>
        obtain ⟨label, value⟩ := term
        rw [mem_matching sound first, mem_scan sound]
        constructor
        · rintro ⟨found, -, accepts⟩
          exact ⟨found, accepts⟩
        · rintro ⟨found, accepts⟩
          have has : o.label? label = some value := by
            have all := accepts
            unfold Selector.accepts at all
            rw [first, List.all_cons, Bool.and_eq_true] at all
            exact of_decide_eq_true all.1
          exact ⟨found, indexed k _ o found _ _ has, accepts⟩
  exact eq_of_ordered ordered ordered' members

/-- The index can be relied on. -/
structure Faithful (s : Store) : Prop where
  /-- A query by the index finds what a look at every object finds, in the same order. -/
  queries : ∀ k query, s.matching k query = (s.list k).filter fun o => query.accepts o.info.labels
  /-- Every object is listed once, in the order of the keys. -/
  ordered : ∀ k, (s.list k).Pairwise (·.key < ·.key)
  /-- The texts of the index are the entries of the labels of stored objects. -/
  entries : ∀ text, text ∈ s.index.keys ↔ ∃ m, s.Bears m ∧ m.entry = text
  /-- No two of these labels share an entry, and no entry is there twice. -/
  single : (∀ m n, s.Bears m → s.Bears n → m.entry = n.entry → m = n) ∧ s.index.keys.Nodup

/-- **The index agrees with a scan.**  It can be relied on after any requests, accepted or
refused, that leave the store plain at every step. -/
theorem index_faithful_after (clock : Nat) (rs : List Request)
    (plain : ∀ before, before <+: rs → ((Store.empty clock).after before).Plain) :
    ((Store.empty clock).after rs).Faithful := by
  have sound := (sound_empty clock).after rs
  have mirrored := (mirrored_empty clock).after (sound_empty clock) plain
  have plain_now := plain rs (List.prefix_refl rs)
  constructor
  · exact matching_eq_scan sound mirrored.indexed
  · exact list_ordered sound
  · exact mirrored
  · refine ⟨fun m n bears bears' same => ?_, Dict.nodup_keys _⟩
    exact Mark.eq_of_entry_eq (plain_now m bears) (plain_now n bears') same

/-! ## Plainness by computation -/

theorem plain_iff : s.Plain ↔ ∀ k ∈ Kind.all, ∀ stored ∈ (s.tables.get k).entries,
    ∀ label ∈ stored.2.info.labels.entries,
      (⟨k, label.1, label.2, stored.1⟩ : Mark).Plain := by
  constructor
  · intro plain k _ stored inside label has
    refine plain _ ⟨stored.2, ?_, ?_⟩
    · exact (Dict.get?_eq_some_iff _).2 inside
    · exact (Dict.get?_eq_some_iff _).2 has
  · rintro plain ⟨k, label, value, key⟩ ⟨o, found, has⟩
    have known : k ∈ Kind.all := by cases k <;> decide
    exact plain k known (key, o) ((Dict.get?_eq_some_iff _).1 found) (label, value)
      ((Dict.get?_eq_some_iff _).1 has)

instance (m : Mark) : Decidable m.Plain :=
  decidable_of_iff (('=' ∉ m.label.toList ∧ '\x1f' ∉ m.label.toList) ∧
    '\x1f' ∉ m.value.toList ∧ '\x1f' ∉ m.key.toList)
    ⟨fun h => ⟨h.1, h.2.1, h.2.2⟩, fun h => ⟨h.label, h.value, h.key⟩⟩

instance (s : Store) : Decidable s.Plain := decidable_of_iff _ plain_iff.symm

namespace Sample

def build (name app : String) : Build :=
  { info := { Meta.fresh "" name with labels := Dict.ofList [(Label.app, app)] }
    spec := ⟨"registry.example.com", "web", name, 1⟩
    status := () }

/-- Two builds whose labels begin alike.  One is relabelled and created in vain, the other
deleted. -/
def relabelling : List Request :=
  [.create (build "v1" "web"), .apply (build "v2" "webapp"),
    .modifySpec .builds "" "v1" fun o => { o with info.labels := Dict.ofList [(Label.app, "api")] },
    .create (build "v1" "web"), .delete .builds "" "v2"]

def found (requests : Nat) (app : String) : List String :=
  (((Store.empty 9).after (relabelling.take requests)).matching .builds
    (Selector.any.require Label.app app)).map (·.key)

theorem relabelled_index_faithful :
    (∀ before, before <+: relabelling → ((Store.empty 9).after before).Plain) ∧
      ((Store.empty 9).after relabelling).Faithful ∧
      found 2 "web" = ["v1"] ∧ found 5 "web" = [] ∧ found 5 "api" = ["v1"] ∧
      found 5 "webapp" = [] := by
  have plain : ∀ before, before <+: relabelling → ((Store.empty 9).after before).Plain := by
    intro before start
    have each : ∀ before ∈ relabelling.inits, ((Store.empty 9).after before).Plain := by decide
    exact each before ((List.mem_inits _ _).2 start)
  exact ⟨plain, index_faithful_after 9 relabelling plain, by decide, by decide, by decide,
    by decide⟩

end Sample

end Store
end Cutover
