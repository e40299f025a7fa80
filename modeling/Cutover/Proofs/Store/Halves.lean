/-
# Cutover.Proofs.Store.Halves -- the two halves of an object are written apart

A write of the spec takes spec, labels and owner from the caller's object, and a write of the
status takes the status.  All else stays as it is stored (`SpecWritten`, `StatusWritten`), so what
the caller has of the other half may be as old as it likes.  Each counts on its own version and
asks for its own only, and therefore a client that has seen the version of one half is not held up by
a write of the other.

Two writes of the same object in a row leave the tables as the second alone would
(`tables_commit_commit`), and only the one of the spec changes labels.  So the order of a spec
write and a status write shows in the feed and nowhere else (`spec_and_status_writes_commute`).
-/
import Cutover.Proofs.Store.Write

namespace Cutover.Store

set_option autoImplicit false

variable {k : Kind} {s s' : Store} {before o after : Object k}

/-! ## One write -/

/-- An object before and after a write of the spec of another. -/
structure SpecWritten (before o after : Object k) : Prop where
  spec : after.spec = o.spec
  labels : after.info.labels = o.info.labels
  owner : after.info.owner = o.info.owner
  specVersion : after.info.specVersion = before.info.specVersion + 1
  status : after.status = before.status
  statusVersion : after.info.statusVersion = before.info.statusVersion
  createdAt : after.info.createdAt = before.info.createdAt
  key : after.key = before.key

/-- An object before and after a write of the status of another. -/
structure StatusWritten (before o after : Object k) : Prop where
  status : after.status = o.status
  statusVersion : after.info.statusVersion = before.info.statusVersion + 1
  spec : after.spec = before.spec
  labels : after.info.labels = before.info.labels
  owner : after.info.owner = before.info.owner
  specVersion : after.info.specVersion = before.info.specVersion
  createdAt : after.info.createdAt = before.info.createdAt
  key : after.key = before.key

theorem specWritten_respecified (before o : Object k) :
    SpecWritten before o (respecified before o) :=
  ⟨rfl, rfl, rfl, rfl, rfl, rfl, rfl, rfl⟩

theorem statusWritten_restated (before o : Object k) :
    StatusWritten before o (restated before o.status) :=
  ⟨rfl, rfl, rfl, rfl, rfl, rfl, rfl, rfl⟩

/-- A write of the spec is accepted, and what it answers is what is stored afterwards. -/
structure WritesSpec (s : Store) (before o after : Object k) (s' : Store) : Prop where
  accepted : s.updateSpec o = .ok (after, s')
  stored : s'.getByKey k after.key = some after
  written : SpecWritten before o after

/-- A write of the status is accepted, and what it answers is what is stored afterwards. -/
structure WritesStatus (s : Store) (before o after : Object k) (s' : Store) : Prop where
  accepted : s.updateStatus o = .ok (after, s')
  stored : s'.getByKey k after.key = some after
  written : StatusWritten before o after

section Write

variable (found : s.getByKey k before.key = some before) (key : o.key = before.key)

include found key

theorem writesSpec (seen : o.info.specVersion = before.info.specVersion) :
    WritesSpec s before o (respecified before o)
      (s.commit (respecified before o) before.info.labels .specUpdated) := by
  have there : s.getByKey k o.key = some before := by rwa [key]
  refine ⟨updateSpec_eq there seen.symm, ?_, specWritten_respecified before o⟩
  exact getByKey_commit_self ..

theorem writesStatus (seen : o.info.statusVersion = before.info.statusVersion) :
    WritesStatus s before o (restated before o.status)
      (s.commit (restated before o.status) before.info.labels .statusUpdated) := by
  have there : s.getByKey k o.key = some before := by rwa [key]
  refine ⟨updateStatus_eq there seen.symm, ?_, statusWritten_restated before o⟩
  exact getByKey_commit_self ..

end Write

/-! ## Two writes -/

/-- Of two commits of one key the tables show the second only. -/
theorem tables_commit_commit (s : Store) {x y : Object k} (key : y.key = x.key)
    (labels labels' : Dict String) (change change' : Change) :
    ((s.commit x labels change).commit y labels' change').tables =
      s.tables.set k ((s.tables.get k).insert y.key y) := by
  simp only [commit, Tables.get_set_self, Tables.set_set, key, Dict.insert_insert_self]

theorem eq_but_feed {t : Store} (tables : s.tables = t.tables) (index : s.index = t.index)
    (clock : s.clock = t.clock) : s = { t with feed := s.feed } := by
  cases s
  cases t
  simp_all

/-- A commit of an object with a new spec, and then one of the same object with a new status too,
come to the same as the other way round. -/
theorem commit_restated_respecified (s : Store) (before o : Object k) (status : k.Status) :
    let both := restated (respecified before o) status
    let specFirst := (s.commit (respecified before o) before.info.labels .specUpdated).commit both
      o.info.labels .statusUpdated
    let statusFirst := (s.commit (restated before status) before.info.labels .statusUpdated).commit
      both before.info.labels .specUpdated
    specFirst = { statusFirst with feed := specFirst.feed } := by
  intro both specFirst statusFirst
  have key : both.key = (respecified before o).key := rfl
  have key' : both.key = (restated before status).key := rfl
  have tables : specFirst.tables = statusFirst.tables :=
    (tables_commit_commit s key ..).trans (tables_commit_commit s key' ..).symm
  -- a write of the status relabels from some labels to the same
  have index : specFirst.index = statusFirst.index := by
    have first : specFirst.index = (s.index.relabel k before.key before.info.labels
      o.info.labels).relabel k before.key o.info.labels o.info.labels := rfl
    have second : statusFirst.index = (s.index.relabel k before.key before.info.labels
      before.info.labels).relabel k before.key before.info.labels o.info.labels := rfl
    rw [first, second, Index.relabel_self, Index.relabel_self]
  exact eq_but_feed tables index rfl

/-- **Writes of the spec and of the status commute.**  Two clients have each seen the stored version
of the half they write, whatever else their objects hold.  In either order both writes are
accepted, each changes its own half only, and the two stores are the same but for their feeds. -/
theorem spec_and_status_writes_commute {current o p : Object k}
    (found : s.getByKey k current.key = some current)
    (o_key : o.key = current.key) (p_key : p.key = current.key)
    (spec_seen : o.info.specVersion = current.info.specVersion)
    (status_seen : p.info.statusVersion = current.info.statusVersion) :
    ∃ (specced stated both : Object k) (s₁ s₂ s₁₂ s₂₁ : Store),
      WritesSpec s current o specced s₁ ∧ WritesStatus s₁ specced p both s₁₂ ∧
      WritesStatus s current p stated s₂ ∧ WritesSpec s₂ stated o both s₂₁ ∧
      s₁₂ = { s₂₁ with feed := s₁₂.feed } := by
  have first := writesSpec found o_key spec_seen
  have first' := writesStatus found p_key status_seen
  -- neither has changed the version that the other client has seen
  have second := writesStatus first.stored p_key status_seen
  have second' := writesSpec first'.stored o_key spec_seen
  exact ⟨_, _, _, _, _, _, _, first, second, first', second',
    commit_restated_respecified s current o p.status⟩

namespace Sample

/-- A release of an application. -/
def ofApp (app : String) : Release :=
  { info := { Meta.fresh "prod" "web-1" with labels := Dict.ofList [(Label.app, app)] }
    spec := default
    status := default }

def filed : Release := (Store.empty 9).accepted (ofApp "web")

def filing : Store := (Store.empty 9).commit filed ∅ .created

/-- The release as one client has it, who gives it to another application. -/
def moved : Release :=
  { ofApp "api" with info.specVersion := 1, info.statusVersion := 7, status.numReady := 1 }

/-- The release as another client has it, who has counted its instances. -/
def counted : Release := { ofApp "shop" with info.statusVersion := 1, status.numReady := 3 }

/-- Neither client knows what the other does, and the release ends with the label of the one and
the count of the other. -/
theorem moved_and_counted : filing.getByKey .releases filed.key = some filed ∧
    ∃ (both : Release) (s₁ s₂ s₁₂ s₂₁ : Store),
      (∃ o, filing.updateSpec moved = .ok (o, s₁)) ∧ s₁.updateStatus counted = .ok (both, s₁₂) ∧
      (∃ o, filing.updateStatus counted = .ok (o, s₂)) ∧ s₂.updateSpec moved = .ok (both, s₂₁) ∧
      s₁₂.index = s₂₁.index ∧ both.label? Label.app = some "api" ∧ both.status.numReady = 3 := by
  have found : filing.getByKey .releases filed.key = some filed := by decide
  have o_key : moved.key = filed.key := by decide
  have p_key : counted.key = filed.key := by decide
  obtain ⟨specced, stated, both, s₁, s₂, s₁₂, s₂₁, first, second, first', second', same⟩ :=
    spec_and_status_writes_commute found o_key p_key rfl rfl
  have index : s₁₂.index = s₂₁.index := by rw [same]
  have labels : both.info.labels = moved.info.labels := second'.written.labels
  refine ⟨found, both, s₁, s₂, s₁₂, s₂₁, ⟨specced, first.accepted⟩, second.accepted,
    ⟨stated, first'.accepted⟩, second'.accepted, index, ?_, ?_⟩
  · rw [Object.label?, labels]
    decide
  · rw [second.written.status]
    rfl

end Sample

end Cutover.Store
