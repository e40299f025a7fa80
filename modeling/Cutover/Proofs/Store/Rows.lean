/-
# Cutover.Proofs.Store.Rows -- what a store keeps as text

A table keeps the text of every object under its key (`Store.rows`), and a read decodes the
rows it finds: one that cannot be decoded fails the whole read (`rowByKey?`, `rowList?`,
`rowMatching?`).

If the numbers of all objects of a kind fit (`Store.InRange`), every read succeeds and gives
what the store of objects gives (`rowByKey?_eq`, `rowList?_eq`, `rowMatching?_eq`).  Storing a
new object whose numbers fit keeps it so, and each of the reads gives the object back.
-/
import Cutover.Proofs.Schema.Object
import Cutover.Proofs.Store.Query

namespace Cutover

set_option autoImplicit false

/-! ## Rows -/

/-- Another value for every key. -/
def Dict.mapValues {α β : Type} (f : α → β) (d : Dict α) : Dict β :=
  ⟨d.entries.map fun entry => (entry.1, f entry.2), List.pairwise_map.2 d.ordered⟩

theorem Dict.get?_mapValues {α β : Type} (f : α → β) (d : Dict α) (key : String) :
    (d.mapValues f).get? key = (d.get? key).map f := by
  obtain ⟨entries, ordered⟩ := d
  show find key (entries.map _) = (find key entries).map f
  clear ordered
  induction entries with
  | nil => rfl
  | cons entry rest ih =>
      simp only [List.map_cons, find, ih]
      split <;> rfl

namespace Store

variable {k : Kind} {s s' : Store}

/-- The text of every object of a kind, under its key. -/
def rows (s : Store) (k : Kind) : Dict String := (s.tables.get k).mapValues Object.text

/-- What a look-up decodes: nothing under a free key, an object, or a failure. -/
def rowByKey? (s : Store) (k : Kind) (key : String) : Option (Option (Object k)) :=
  match (s.rows k).get? key with
  | none => some none
  | some text => (Object.ofText? k text).map some

/-- Every object of a kind, decoded in key order. -/
def rowList? (s : Store) (k : Kind) : Option (List (Object k)) :=
  (s.rows k).values.mapM (Object.ofText? k)

/-- The decoded objects that have an entry under a query's first term, and of them those whose
labels satisfy the query. -/
def rowMatching? (s : Store) (k : Kind) (query : Selector) : Option (List (Object k)) :=
  match query.terms.entries with
  | [] => s.rowList? k
  | (label, value) :: _ =>
      (((s.index.keysUnder (Index.stem k label value)).filterMap (s.rows k).get?).mapM
        (Object.ofText? k)).map fun found => found.filter fun o => query.accepts o.info.labels

/-- The numbers of every object of a kind fit. -/
def InRange (s : Store) (k : Kind) : Prop :=
  ∀ (key : String) (o : Object k), s.getByKey k key = some o → o.InRange

/-! ## Reads -/

theorem rows_get? (s : Store) (k : Kind) (key : String) :
    (s.rows k).get? key = (s.getByKey k key).map Object.text := Dict.get?_mapValues ..

theorem rowByKey?_eq (fits : s.InRange k) (key : String) :
    s.rowByKey? k key = some (s.getByKey k key) := by
  unfold rowByKey?
  rw [rows_get?]
  cases found : s.getByKey k key with
  | none => rfl
  | some o =>
      show (Object.ofText? k o.text).map some = _
      rw [Object.ofText?_text (fits key o found)]
      rfl

theorem mapM_text {l : List (Object k)} (each : ∀ o ∈ l, o.InRange) :
    (l.map Object.text).mapM (Object.ofText? k) = some l :=
  Json.mapM_map fun o member => Object.ofText?_text (each o member)

theorem exists_key_of_mem_list {o : Object k} (member : o ∈ s.list k) :
    ∃ key, s.getByKey k key = some o := by
  obtain ⟨entry, inside, rfl⟩ := List.mem_map.1 member
  exact ⟨entry.1, (Dict.get?_eq_some_iff _).2 inside⟩

theorem rowList?_eq (fits : s.InRange k) : s.rowList? k = some (s.list k) := by
  have texts : (s.rows k).values = (s.list k).map Object.text := by
    show List.map _ (List.map _ _) = List.map _ (List.map _ _)
    rw [List.map_map, List.map_map]
    rfl
  unfold rowList?
  rw [texts]
  refine mapM_text fun o member => ?_
  obtain ⟨key, found⟩ := exists_key_of_mem_list member
  exact fits key o found

theorem rowMatching?_eq (fits : s.InRange k) (query : Selector) :
    s.rowMatching? k query = some (s.matching k query) := by
  unfold rowMatching? matching
  cases query.terms.entries with
  | nil => exact rowList?_eq fits
  | cons term rest =>
      have texts (keys : List String) : keys.filterMap (s.rows k).get? =
          (keys.filterMap (s.getByKey k)).map Object.text := by
        rw [List.map_filterMap]
        exact List.filterMap_congr fun key _ => rows_get? s k key
      have each (keys : List String) : ∀ o ∈ keys.filterMap (s.getByKey k), o.InRange := by
        intro o member
        obtain ⟨key, -, found⟩ := List.mem_filterMap.1 member
        exact fits key o found
      show Option.map _ (List.mapM _ (List.filterMap _ _)) = _
      rw [texts, mapM_text (each _), Option.map_some, List.filter_filterMap]

/-! ## A new object -/

theorem inRange_empty (clock : Nat) (k : Kind) : (Store.empty clock).InRange k := by
  intro key o found
  cases k <;> cases found

/-- An object is accepted with a time the clock gives and with its first versions. -/
theorem accepted_inRange {o : Object k} (fits : o.InRange) (clock : s.clock < Width.bits64) :
    (s.accepted o).InRange where
  info := by
    refine ⟨?_, show 1 < Width.bits64 by decide, show 1 < Width.bits64 by decide⟩
    show (if o.info.createdAt = 0 then s.clock else o.info.createdAt) < Width.bits64
    split
    · exact clock
    · exact fits.info.createdAt
  spec := fits.spec
  status := fits.status

theorem InRange.commit (inRange : s.InRange k) {o : Object k} (fits : o.InRange)
    (before : Dict String) (change : Change) : (s.commit o before change).InRange k := by
  intro key x found
  by_cases same : key = o.key
  · rw [same, getByKey_commit_self] at found
    cases found
    exact fits
  · rw [getByKey_commit_of_ne s o before change same] at found
    exact inRange key x found

theorem mem_list_commit (s : Store) (o : Object k) (before : Dict String) (change : Change) :
    o ∈ (s.commit o before change).list k := by
  have found := getByKey_commit_self s o before change
  exact List.mem_map.2 ⟨(o.key, o), (Dict.get?_eq_some_iff _).1 found, rfl⟩

/-- A query that a new object satisfies finds it under the entry of its first term. -/
theorem mem_matching_commit_new (s : Store) {o : Object k} (change : Change) {query : Selector}
    (accepts : query.accepts o.info.labels = true) :
    o ∈ (s.commit o ∅ change).matching k query := by
  cases first : query.terms.entries with
  | nil =>
      unfold matching
      rw [first]
      exact mem_list_commit s o ∅ change
  | cons term rest =>
      have has : o.info.labels.get? term.1 = some term.2 := by
        have all := List.all_eq_true.1 accepts term (by rw [first]; exact List.mem_cons_self)
        simpa using all
      have entry : Index.entry k term.1 term.2 o.key ∈
          (s.index.relabel k o.key ∅ o.info.labels).keys :=
        Index.mem_keys_relabel.2
          (.inl (Index.mem_entriesBeyond.2 ⟨term.1, term.2, has, by simp, rfl⟩))
      rw [matching_eq first, List.mem_filterMap]
      refine ⟨o.key, Index.mem_keysUnder.2 entry, Option.filter_eq_some_iff.2 ⟨?_, accepts⟩⟩
      exact getByKey_commit_self s o ∅ change

/-- **Objects survive storage.**  An object of any of the nine kinds whose numbers fit is
decoded from its text as it was.  If the numbers of all stored objects of the kind fit, a new
one is stored under its free key as it was but for its versions and a time that was not set,
and the look-up of its name, the list of its kind and every query that it satisfies decode to
what is stored, with this object as it was stored. -/
theorem objects_survive_storage (k : Kind) :
    (∀ o : Object k, o.InRange → Object.ofText? k o.text = some o) ∧
    ∀ (s : Store) (o : Object k), s.InRange k → s.clock < Width.bits64 → o.InRange →
      s.getByKey k o.key = none → ∃ stored s', s.create o = .ok (stored, s') ∧
        stored = { o with
          info.createdAt := if o.info.createdAt = 0 then s.clock else o.info.createdAt
          info.specVersion := 1
          info.statusVersion := 1 } ∧
        s'.InRange k ∧
        s'.rowByKey? k (objectKey o.info.ns o.info.name) = some (some stored) ∧
        s'.get k o.info.ns o.info.name = some stored ∧
        s'.rowList? k = some (s'.list k) ∧ stored ∈ s'.list k ∧
        ∀ query : Selector, s'.rowMatching? k query = some (s'.matching k query) ∧
          (query.accepts o.info.labels = true → stored ∈ s'.matching k query) := by
  refine ⟨fun o fits => Object.ofText?_text fits, fun s o inRange clock fits free => ?_⟩
  have kept : (s.commit (s.accepted o) ∅ .created).InRange k :=
    inRange.commit (accepted_inRange fits clock) ∅ .created
  have found := getByKey_commit_self s (s.accepted o) ∅ .created
  refine ⟨s.accepted o, s.commit (s.accepted o) ∅ .created, create_eq free, rfl, kept, ?_, found,
    rowList?_eq kept, mem_list_commit .., fun query => ⟨rowMatching?_eq kept query, ?_⟩⟩
  · rw [rowByKey?_eq kept]
    exact congrArg some found
  · exact fun accepts => mem_matching_commit_new s .created accepts

namespace Sample

/-- An instance without owner and node, whose container was killed and had failed before. -/
def killed : Instance :=
  { info := { Meta.fresh "prod" "web-1-0" with
      labels := Dict.ofList [(Label.release, "web-1")] }
    spec := ⟨none⟩
    status :=
      { phase := .failed
        conditions := [⟨"Ready", "", "no \"answer\"\n"⟩]
        containerStatuses :=
          [⟨"web", .terminated ⟨-9, "OOMKilled", ""⟩, some ⟨1, "Error", "\x01"⟩⟩]
        cpuUtilization := some 0 } }

/-- It is stored and read back, by its name, in the list and by its release. -/
theorem killed_read_back : killed.InRange ∧ (Store.empty 9).InRange .instances ∧
    Object.ofText? .instances killed.text = some killed ∧
    ∃ stored s', (Store.empty 9).create killed = .ok (stored, s') ∧
      stored.status = killed.status ∧
      s'.get .instances "prod" "web-1-0" = some stored ∧ stored ∈ s'.list .instances ∧
      stored ∈ s'.matching .instances (Selector.ofRelease "web-1") := by
  have fits : killed.InRange := by decide
  obtain ⟨whole, kept⟩ := objects_survive_storage .instances
  obtain ⟨stored, s', created, same, -, -, found, -, listed, queries⟩ :=
    kept (Store.empty 9) killed (inRange_empty 9 .instances) (by decide) fits rfl
  refine ⟨fits, inRange_empty 9 .instances, whole killed fits, stored, s', created, ?_, found,
    listed, (queries _).2 (Selector.accepts_ofRelease.2 rfl)⟩
  rw [same]

end Sample

end Store
end Cutover
