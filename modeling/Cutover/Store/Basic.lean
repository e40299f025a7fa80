/-
# Cutover.Store.Basic -- the object store

A `Store` holds one table of objects per kind, an index of their labels, the feed
of committed changes and the wall clock that stamps new objects.

Every write is conditional and changes one key: `create` wants the key free,
`updateSpec` and `updateStatus` want the version the caller has seen.  A write
that is refused returns an error and no store.  A write that is accepted goes
through `commit` or `delete`, which change the table, the index and the feed
together.

The index has one entry per label of an object, the text of `Index.entry`.  A
query reads the entries that start with `Index.stem` of its first term and keeps
the objects that satisfy all terms (`matching`).  Entries are texts, so two
labels whose names and values run together to one text share an entry.
-/
import Cutover.Labels
import Cutover.Store.Error

namespace Cutover

set_option autoImplicit false

/-! ## Tables -/

/-- One table of objects per kind, each ordered by key. -/
structure Tables where
  descriptors : Dict Descriptor
  builds : Dict Build
  releases : Dict Release
  replicaGroups : Dict ReplicaGroup
  instances : Dict Instance
  autoscalers : Dict Autoscaler
  appConfigs : Dict AppConfig
  configMaps : Dict ConfigMap
  trafficSplits : Dict TrafficSplit
  deriving DecidableEq, Inhabited

namespace Tables

def get (t : Tables) : (k : Kind) → Dict (Object k)
  | .descriptors => t.descriptors
  | .builds => t.builds
  | .releases => t.releases
  | .replicaGroups => t.replicaGroups
  | .instances => t.instances
  | .autoscalers => t.autoscalers
  | .appConfigs => t.appConfigs
  | .configMaps => t.configMaps
  | .trafficSplits => t.trafficSplits

def set (t : Tables) : (k : Kind) → Dict (Object k) → Tables
  | .descriptors, d => { t with descriptors := d }
  | .builds, d => { t with builds := d }
  | .releases, d => { t with releases := d }
  | .replicaGroups, d => { t with replicaGroups := d }
  | .instances, d => { t with instances := d }
  | .autoscalers, d => { t with autoscalers := d }
  | .appConfigs, d => { t with appConfigs := d }
  | .configMaps, d => { t with configMaps := d }
  | .trafficSplits, d => { t with trafficSplits := d }

@[simp] theorem get_set_self (t : Tables) (k : Kind) (d : Dict (Object k)) :
    (t.set k d).get k = d := by cases k <;> rfl

theorem get_set_of_ne (t : Tables) {k j : Kind} (d : Dict (Object k)) (ne : j ≠ k) :
    (t.set k d).get j = t.get j := by cases k <;> cases j <;> first | rfl | exact absurd rfl ne

@[simp] theorem set_set (t : Tables) (k : Kind) (d e : Dict (Object k)) :
    (t.set k d).set k e = t.set k e := by cases k <;> rfl

theorem ext_get {t u : Tables} (same : ∀ k, t.get k = u.get k) : t = u := by
  cases t; cases u
  simp only [Tables.mk.injEq]
  exact ⟨same .descriptors, same .builds, same .releases, same .replicaGroups, same .instances,
    same .autoscalers, same .appConfigs, same .configMaps, same .trafficSplits⟩

end Tables

/-! ## The label index -/

/-- The texts of the label index. -/
abbrev Index := Dict Unit

namespace Index

def separator : String := "\x1f"

/-- What the entries of all objects of a kind with one label's value start with. -/
def stem (kind : Kind) (label value : String) : String :=
  kind.name ++ separator ++ label ++ "=" ++ value ++ separator

/-- The entry of one object for one of its labels. -/
def entry (kind : Kind) (label value key : String) : String := stem kind label value ++ key

/-- What follows a stem in a text that starts with it. -/
def afterStem? (stem text : String) : Option String :=
  (stem.toList.isPrefixOf? text.toList).map String.ofList

/-- The keys behind the entries that start with a stem.  They stand together in the
order of the entries. -/
def keysUnder (index : Index) (stem : String) : List String :=
  (index.keys.dropWhile (· < stem)).map (afterStem? stem) |>.takeWhile (·.isSome) |>.filterMap id

/-- The entries of labels that another set of labels does not have. -/
def entriesBeyond (kind : Kind) (key : String) (labels other : Dict String) : List String :=
  (labels.entries.filter fun label => other.get? label.1 != some label.2).map
    fun label => entry kind label.1 label.2 key

/-- Follow a change of an object's labels: the entries of labels that went are
dropped, then those of labels that came are added. -/
def relabel (index : Index) (kind : Kind) (key : String) (before after : Dict String) : Index :=
  let kept := (entriesBeyond kind key before after).foldl Dict.erase index
  (entriesBeyond kind key after before).foldl (fun index text => index.insert text ()) kept

end Index

/-! ## The store -/

inductive Change where
  | created
  | specUpdated
  | statusUpdated
  | deleted
  deriving DecidableEq

/-- A committed change of one object, with its labels and owner after the change,
or before it for a deletion. -/
structure Event where
  kind : Kind
  key : String
  labels : Dict String
  owner : Option String
  change : Change
  deriving DecidableEq

/-- Objects, label index, the feed of changes in the order of their commits, and
the wall clock in seconds. -/
structure Store where
  tables : Tables
  index : Index
  feed : List Event
  clock : Nat
  deriving DecidableEq, Inhabited

namespace Store

variable {k : Kind}

def empty (clock : Nat) : Store := { (default : Store) with clock }

/-! ### Reads -/

def getByKey (s : Store) (k : Kind) (key : String) : Option (Object k) :=
  (s.tables.get k).get? key

def get (s : Store) (k : Kind) (ns name : String) : Option (Object k) :=
  s.getByKey k (objectKey ns name)

/-- Every object of a kind in key order. -/
def list (s : Store) (k : Kind) : List (Object k) := (s.tables.get k).values

/-- The objects whose labels satisfy a query, in the order of the index entries of
its first term. -/
def matching (s : Store) (k : Kind) (query : Selector) : List (Object k) :=
  match query.terms.entries with
  | [] => s.list k
  | (label, value) :: _ =>
      (s.index.keysUnder (Index.stem k label value)).filterMap fun key =>
        (s.getByKey k key).filter fun o => query.accepts o.info.labels

/-! ### Writes -/

def event (o : Object k) (change : Change) : Event :=
  ⟨k, o.key, o.info.labels, o.info.owner, change⟩

/-- Put an object in place of what its key held, whose labels are given. -/
def commit (s : Store) (o : Object k) (labelsBefore : Dict String) (change : Change) : Store :=
  { s with
    tables := s.tables.set k ((s.tables.get k).insert o.key o)
    index := s.index.relabel k o.key labelsBefore o.info.labels
    feed := s.feed ++ [event o change] }

/-- Store a new object under a free key.  A creation time of zero is the clock's. -/
def create (s : Store) (o : Object k) : Except StoreError (Object k × Store) :=
  let o : Object k := { o with
    info.createdAt := if o.info.createdAt = 0 then s.clock else o.info.createdAt
    info.specVersion := 1
    info.statusVersion := 1 }
  match s.getByKey k o.key with
  | some _ => .error (.alreadyExists k o.key)
  | none => .ok (o, s.commit o ∅ .created)

/-- Replace spec, labels and owner if the caller has seen the stored spec version. -/
def updateSpec (s : Store) (o : Object k) : Except StoreError (Object k × Store) :=
  match s.getByKey k o.key with
  | none => .error (.notFound (k.name ++ " " ++ o.key))
  | some current =>
      if current.info.specVersion ≠ o.info.specVersion then
        .error (.conflict k o.key o.info.specVersion current.info.specVersion)
      else
        let updated : Object k := { current with
          spec := o.spec
          info.labels := o.info.labels
          info.owner := o.info.owner
          info.specVersion := current.info.specVersion + 1 }
        .ok (updated, s.commit updated current.info.labels .specUpdated)

/-- Replace the status if the caller has seen the stored status version. -/
def updateStatus (s : Store) (o : Object k) : Except StoreError (Object k × Store) :=
  match s.getByKey k o.key with
  | none => .error (.notFound (k.name ++ " " ++ o.key))
  | some current =>
      if current.info.statusVersion ≠ o.info.statusVersion then
        .error (.conflict k o.key o.info.statusVersion current.info.statusVersion)
      else
        let updated : Object k := { current with
          status := o.status
          info.statusVersion := current.info.statusVersion + 1 }
        .ok (updated, s.commit updated current.info.labels .statusUpdated)

/-- Remove an object; whether it was there. -/
def delete (s : Store) (k : Kind) (ns name : String) : Bool × Store :=
  let key := objectKey ns name
  match s.getByKey k key with
  | none => (false, s)
  | some current =>
      (true, { s with
        tables := s.tables.set k ((s.tables.get k).erase key)
        index := s.index.relabel k key current.info.labels ∅
        feed := s.feed ++ [event current .deleted] })

end Store
end Cutover
