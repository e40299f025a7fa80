/-
# Cutover.Proofs.Store.Versions -- what the version of an object says about its past

Each half of an object has a version that a store starts at one and counts on with every write of
that half.  `Life` follows it through the changes of one key: a creation finds no object, a
deletion leaves none.  Every step of a store is a part of a life (`Next.lives`), so every run is
one (`Sound.lives_after`).

A client that writes with the version it has seen is refused if the half has been written
since, and so it is if the object is gone.  But the count starts over with a new object under
the same key.  A write with the version of a deleted object is accepted once its successor has
been written as often (`write_commits_iff`).
-/
import Cutover.Proofs.Store.Request

namespace Cutover

set_option autoImplicit false

/-! ## Halves of an object -/

/-- The spec with labels and owner, or the status. -/
inductive Half where
  | spec
  | status
  deriving DecidableEq

namespace Half

variable {k : Kind}

def other : Half → Half
  | spec => status
  | status => spec

def version : Half → Meta → Nat
  | spec => Meta.specVersion
  | status => Meta.statusVersion

/-- How a write of the half shows in the feed. -/
def change : Half → Change
  | spec => .specUpdated
  | status => .statusUpdated

/-- Replace one half of an object if its version is the stored one. -/
def write (h : Half) (s : Store) (o : Object k) : Except StoreError (Object k × Store) :=
  match h with
  | spec => s.updateSpec o
  | status => s.updateStatus o

/-- The stored object with one half of another. -/
def written (h : Half) (current o : Object k) : Object k :=
  match h with
  | spec => Store.respecified current o
  | status => Store.restated current o.status

def request (h : Half) (o : Object k) : Request :=
  match h with
  | spec => .updateSpec o
  | status => .updateStatus o

@[simp] theorem change_ne_created (h : Half) : h.change ≠ .created := by cases h <;> decide

@[simp] theorem change_ne_deleted (h : Half) : h.change ≠ .deleted := by cases h <;> decide

@[simp] theorem other_change_ne (h : Half) : h.other.change ≠ h.change := by cases h <;> decide

theorem eq_other_change {h : Half} {c : Change} (not_created : c ≠ .created)
    (not_deleted : c ≠ .deleted) (not_own : c ≠ h.change) : c = h.other.change := by
  cases h <;> cases c <;> simp_all [change, other]

end Half

/-! ## The life of a key -/

/-- How the version of one half goes on with the changes of a key.  There is no version while
there is no object. -/
inductive Life (h : Half) : Option Nat → List Change → Option Nat → Prop
  | nil (v : Option Nat) : Life h v [] v
  | created {v : Option Nat} {later : List Change} (rest : Life h (some 1) later v) :
      Life h none (.created :: later) v
  | written {n : Nat} {v : Option Nat} {later : List Change}
      (rest : Life h (some (n + 1)) later v) :
      Life h (some n) (h.change :: later) v
  | aside {n : Nat} {v : Option Nat} {later : List Change} (rest : Life h (some n) later v) :
      Life h (some n) (h.other.change :: later) v
  | deleted {n : Nat} {v : Option Nat} {later : List Change} (rest : Life h none later v) :
      Life h (some n) (.deleted :: later) v

namespace Life

variable {h : Half} {u v w : Option Nat} {n : Nat} {earlier later changes : List Change}

theorem trans (first : Life h u earlier v) (second : Life h v later w) :
    Life h u (earlier ++ later) w := by
  induction first with
  | nil v => exact second
  | created rest ih => exact .created (ih second)
  | written rest ih => exact .written (ih second)
  | aside rest ih => exact .aside (ih second)
  | deleted rest ih => exact .deleted (ih second)

theorem split (life : Life h u (earlier ++ later) w) :
    ∃ v, Life h u earlier v ∧ Life h v later w := by
  induction earlier generalizing u with
  | nil => exact ⟨u, .nil u, life⟩
  | cons c earlier ih =>
      cases life with
      | created rest =>
          obtain ⟨v, first, second⟩ := ih rest
          exact ⟨v, .created first, second⟩
      | written rest =>
          obtain ⟨v, first, second⟩ := ih rest
          exact ⟨v, .written first, second⟩
      | aside rest =>
          obtain ⟨v, first, second⟩ := ih rest
          exact ⟨v, .aside first, second⟩
      | deleted rest =>
          obtain ⟨v, first, second⟩ := ih rest
          exact ⟨v, .deleted first, second⟩

/-- An object that is not deleted is not created again, and its version counts the writes. -/
theorem of_not_deleted (life : Life h (some n) changes v) (kept : .deleted ∉ changes) :
    .created ∉ changes ∧ v = some (n + changes.count h.change) := by
  induction changes generalizing n with
  | nil =>
      cases life
      exact ⟨List.not_mem_nil, rfl⟩
  | cons c later ih =>
      rw [List.mem_cons, not_or] at kept
      cases life with
      | written rest =>
          obtain ⟨none_created, rfl⟩ := ih rest kept.2
          refine ⟨?_, ?_⟩
          · simp [none_created, (Half.change_ne_created h).symm]
          · rw [List.count_cons_self]
            congr 1
            omega
      | aside rest =>
          obtain ⟨none_created, rfl⟩ := ih rest kept.2
          refine ⟨?_, ?_⟩
          · simp [none_created, (Half.change_ne_created h.other).symm]
          · rw [List.count_cons_of_ne (Half.other_change_ne h)]
      | deleted rest => exact absurd rfl kept.1

theorem of_deleted (life : Life h u (.deleted :: later) w) : Life h none later w := by
  generalize same : Change.deleted :: later = changes at life
  cases life with
  | nil => cases same
  | created rest => cases same
  | written rest => exact absurd (List.cons.inj same).1.symm (Half.change_ne_deleted h)
  | aside rest => exact absurd (List.cons.inj same).1.symm (Half.change_ne_deleted h.other)
  | deleted rest =>
      cases same
      exact rest

/-- An object that is there after the last deletion has been created since, and its version counts
the writes. -/
theorem of_last_deletion (life : Life h u (earlier ++ .deleted :: later) (some n))
    (last : .deleted ∉ later) :
    ∃ since, later = .created :: since ∧ since.count h.change + 1 = n := by
  obtain ⟨_, -, ends⟩ := life.split
  cases ends.of_deleted with
  | @created _ since rest =>
      rw [List.mem_cons, not_or] at last
      have counted := (rest.of_not_deleted last.2).2
      refine ⟨since, rfl, ?_⟩
      rw [Option.some.inj counted, Nat.add_comm]

end Life

/-! ## Changes of a key -/

/-- Every change was one of the other half: the half has not been written, and the object has
neither been created nor deleted. -/
def Untouched (h : Half) (changes : List Change) : Prop := ∀ c ∈ changes, c = h.other.change

/-- The object has been deleted and created again, and the half has been written often enough
since to bring its version to a number. -/
def Reborn (h : Half) (n : Nat) (changes : List Change) : Prop :=
  ∃ earlier since, changes = earlier ++ .deleted :: .created :: since ∧ .deleted ∉ since ∧
    since.count h.change + 1 = n

theorem Untouched.not_deleted {h : Half} {changes : List Change} (untouched : Untouched h changes) :
    .deleted ∉ changes := fun inside =>
  Half.change_ne_deleted h.other (untouched _ inside).symm

theorem Life.same_version_iff_untouched {h : Half} {n : Nat} {changes : List Change}
    {v : Option Nat} (life : Life h (some n) changes v) (kept : .deleted ∉ changes) :
    v = some n ↔ Untouched h changes := by
  obtain ⟨none_created, rfl⟩ := life.of_not_deleted kept
  constructor
  · intro same
    have none_written : changes.count h.change = 0 := by
      have := Option.some.inj same
      omega
    intro c inside
    refine Half.eq_other_change ?_ ?_ ?_
    · exact fun e => none_created (e ▸ inside)
    · exact fun e => kept (e ▸ inside)
    · exact fun e => List.count_eq_zero.1 none_written (e ▸ inside)
  · intro untouched
    have none_written : changes.count h.change = 0 := List.count_eq_zero.2 fun inside =>
      Half.other_change_ne h (untouched _ inside).symm
    rw [none_written, Nat.add_zero]

theorem exists_last_deletion {changes : List Change} (gone : .deleted ∈ changes) :
    ∃ earlier later, changes = earlier ++ .deleted :: later ∧ .deleted ∉ later := by
  obtain ⟨later, earlier, reversed, last⟩ :=
    List.eq_append_cons_of_mem (List.mem_reverse.2 gone)
  refine ⟨earlier.reverse, later.reverse, ?_, fun inside => last (List.mem_reverse.1 inside)⟩
  rw [← List.reverse_reverse changes, reversed]
  simp

/-- **When a version comes back.**  The version of a half is what it was if the half is untouched,
and otherwise only if a later object under the key has come as far. -/
theorem Life.same_version_iff {h : Half} {n : Nat} {changes : List Change} {v : Option Nat}
    (life : Life h (some n) changes v) :
    v = some n ↔ Untouched h changes ∨ Reborn h n changes := by
  constructor
  · rintro rfl
    -- what happened before the last deletion says nothing about the version that stands now
    by_cases gone : .deleted ∈ changes
    · obtain ⟨earlier, later, rfl, last⟩ := exists_last_deletion gone
      obtain ⟨since, rfl, counted⟩ := life.of_last_deletion last
      rw [List.mem_cons, not_or] at last
      exact .inr ⟨earlier, since, rfl, last.2, counted⟩
    · exact .inl ((life.same_version_iff_untouched gone).1 rfl)
  · rintro (untouched | ⟨earlier, since, rfl, last, counted⟩)
    · exact (life.same_version_iff_untouched untouched.not_deleted).2 untouched
    · obtain ⟨_, -, ends⟩ := life.split
      cases ends.of_deleted with
      | created rest =>
          rw [(rest.of_not_deleted last).2, Nat.add_comm, counted]

/-! ## The lives of a store's keys -/

namespace Event

/-- Whether the event is about the object of a kind under a key. -/
def about (k : Kind) (key : String) (e : Event) : Bool := e.kind = k ∧ e.key = key

end Event

namespace Store

variable {j k : Kind} {s s' s'' : Store} {h : Half}

def version? (s : Store) (h : Half) (k : Kind) (key : String) : Option Nat :=
  (s.getByKey k key).map (h.version ·.info)

theorem version?_of_found {key : String} {o : Object k} (found : s.getByKey k key = some o) :
    s.version? h k key = some (h.version o.info) := by
  unfold version?
  rw [found]
  rfl

theorem version?_of_free {key : String} (free : s.getByKey k key = none) :
    s.version? h k key = none := by
  unfold version?
  rw [free]
  rfl

/-- What has happened to the object of a kind under a key since a store was as it was, in the
order of the commits. -/
def changesSince (s s' : Store) (k : Kind) (key : String) : List Change :=
  ((s'.feed.drop s.feed.length).filter (Event.about k key)).map (·.change)

/-- A store has become another one, and the changes of a key are those of a life. -/
def Lives (h : Half) (k : Kind) (key : String) (s s' : Store) : Prop :=
  s.feed <+: s'.feed ∧
    Life h (s.version? h k key) (s.changesSince s' k key) (s'.version? h k key)

theorem changesSince_of_feed {news : List Event} (key : String) (feed : s'.feed = s.feed ++ news) :
    s.changesSince s' k key = (news.filter (Event.about k key)).map (·.change) := by
  unfold changesSince
  rw [feed, List.drop_left]

theorem changesSince_trans (key : String) (first : s.feed <+: s'.feed)
    (second : s'.feed <+: s''.feed) :
    s.changesSince s'' k key = s.changesSince s' k key ++ s'.changesSince s'' k key := by
  obtain ⟨news, feed⟩ := first
  obtain ⟨news', feed'⟩ := second
  have feed'' : s''.feed = s.feed ++ (news ++ news') := by rw [← feed', ← feed, List.append_assoc]
  rw [changesSince_of_feed key feed.symm, changesSince_of_feed key feed'.symm,
    changesSince_of_feed key feed'', List.filter_append, List.map_append]

theorem Lives.trans {key : String} (first : Lives h k key s s') (second : Lives h k key s' s'') :
    Lives h k key s s'' := by
  refine ⟨first.1.trans second.1, ?_⟩
  rw [changesSince_trans key first.1 second.1]
  exact first.2.trans second.2

/-- Nothing about the key has changed. -/
theorem Lives.of_unchanged {key : String} {news : List Event} (feed : s'.feed = s.feed ++ news)
    (elsewhere : ∀ e ∈ news, ¬ e.about k key) (same : s'.getByKey k key = s.getByKey k key) :
    Lives h k key s s' := by
  refine ⟨⟨news, feed.symm⟩, ?_⟩
  rw [changesSince_of_feed key feed, List.filter_eq_nil_iff.2 elsewhere]
  unfold version?
  rw [same]
  exact .nil _

theorem getByKey_commit_elsewhere {o : Object j} {key : String} (before : Dict String)
    {change : Change} (away : ¬ (event o change).about k key) :
    (s.commit o before change).getByKey k key = s.getByKey k key := by
  by_cases kind : k = j
  · subst kind
    refine getByKey_commit_of_ne s o before change ?_
    rintro rfl
    exact away (by simp [Event.about, event])
  · exact (agrees_commit kind s o before change).getByKey key

/-- A commit carries a key's life on if the version it leaves is what its change says. -/
theorem Lives.of_commit {o : Object j} {before : Dict String} {change : Change} {key : String}
    (here : Life h (s.version? h j o.key) [change] (some (h.version o.info))) :
    Lives h k key s (s.commit o before change) := by
  have feed : (s.commit o before change).feed = s.feed ++ [event o change] := rfl
  by_cases same : (event o change).about k key
  · obtain ⟨rfl, rfl⟩ : j = k ∧ o.key = key := of_decide_eq_true same
    have after : (s.commit o before change).version? h j o.key = some (h.version o.info) :=
      version?_of_found (getByKey_commit_self ..)
    refine ⟨⟨_, feed.symm⟩, ?_⟩
    rw [changesSince_of_feed _ feed, List.filter_cons_of_pos same, after]
    exact here
  · exact Lives.of_unchanged feed (by simpa using same) (getByKey_commit_elsewhere _ same)

theorem Lives.of_delete {current : Object j} {ns name key : String}
    (found : s.getByKey j (objectKey ns name) = some current)
    (keyed : current.key = objectKey ns name) :
    Lives h k key s (s.delete j ns name).2 := by
  have feed : (s.delete j ns name).2.feed = s.feed ++ [event current .deleted] := by
    unfold delete
    simp only [found]
  by_cases same : (event current .deleted).about k key
  · obtain ⟨rfl, rfl⟩ : j = k ∧ current.key = key := of_decide_eq_true same
    refine ⟨⟨_, feed.symm⟩, ?_⟩
    rw [changesSince_of_feed _ feed]
    have before : s.version? h j current.key = some (h.version current.info) :=
      version?_of_found (keyed ▸ found)
    have after : (s.delete j ns name).2.version? h j current.key = none :=
      version?_of_free (by rw [getByKey_delete, if_pos keyed])
    rw [List.filter_cons_of_pos same, before, after]
    exact .deleted (.nil none)
  · refine Lives.of_unchanged feed (by simpa using same) ?_
    by_cases kind : k = j
    · subst kind
      rw [getByKey_delete, if_neg]
      rintro rfl
      exact same (by simp [Event.about, event, keyed])
    · exact (agrees_delete kind s ns name).getByKey key

/-- **Every step of a store carries the life of every key on.** -/
theorem Next.lives (next : s.Next s') (sound : s.Sound) (h : Half) (k : Kind) (key : String) :
    Lives h k key s s' := by
  cases next with
  | same => exact Lives.of_unchanged (List.append_nil _).symm (by simp) rfl
  | later clock => exact Lives.of_unchanged (List.append_nil _).symm (by simp) rfl
  | @created j o free =>
      refine Lives.of_commit ?_
      rw [version?_of_free (show s.getByKey j (s.accepted o).key = none from free)]
      cases h <;> exact .created (.nil _)
  | @respecified j key' current found o =>
      have keyed : (Store.respecified current o).key = key' := sound.keyed j key' current found
      refine Lives.of_commit ?_
      rw [keyed, version?_of_found found]
      cases h
      · exact .written (.nil _)
      · exact .aside (.nil _)
  | @restated j key' current found status =>
      have keyed : (Store.restated current status).key = key' := sound.keyed j key' current found
      refine Lives.of_commit ?_
      rw [keyed, version?_of_found found]
      cases h
      · exact .aside (.nil _)
      · exact .written (.nil _)
  | @deleted j ns name current found => exact Lives.of_delete found (sound.keyed j _ current found)

/-- A run of requests is a part of the life of every key. -/
theorem Sound.lives_after (sound : s.Sound) (rs : List Request) (h : Half) (k : Kind)
    (key : String) : Lives h k key s (s.after rs) := by
  induction rs generalizing s with
  | nil => exact Lives.of_unchanged (List.append_nil _).symm (by simp) rfl
  | cons r rest ih =>
      have next := next_serve s r
      exact (next.lives sound h k key).trans (ih (sound.next next))

/-! ## Conditional writes -/

/-- How a write of either half comes out. -/
theorem write_eq (h : Half) (s : Store) (o : Object k) : h.write s o =
    match s.getByKey k o.key with
    | none => .error (.notFound (k.name ++ " " ++ o.key))
    | some current =>
        if h.version current.info = h.version o.info then .ok (h.written current o,
          s.commit (h.written current o) current.info.labels h.change)
        else .error (.conflict k o.key (h.version o.info) (h.version current.info)) := by
  cases found : s.getByKey k o.key with
  | none =>
      cases h
      · simp only [Half.write, updateSpec, found]
      · simp only [Half.write, updateStatus, found]
  | some current =>
      simp only
      split
      · rename_i seen
        cases h
        · exact updateSpec_eq found seen
        · exact updateStatus_eq found seen
      · rename_i stale
        cases h
        · exact updateSpec_stale found stale
        · exact updateStatus_stale found stale

theorem write_accepted_iff (h : Half) (s : Store) (o : Object k) :
    (∃ r, h.write s o = .ok r) ↔ s.version? h k o.key = some (h.version o.info) := by
  rw [write_eq]
  unfold version?
  cases s.getByKey k o.key with
  | none => simp
  | some current => by_cases seen : h.version current.info = h.version o.info <;> simp [seen]

theorem refused_by_write {h : Half} {o : Object k} {e : StoreError}
    (refused : h.write s o = .error e) : e.isConflict ∨ e.isNotFound := by
  rw [write_eq] at refused
  split at refused
  · cases refused
    exact .inr rfl
  · split at refused
    · cases refused
    · cases refused
      exact .inl rfl

theorem serve_of_refused {h : Half} {o : Object k} {e : StoreError}
    (refused : h.write s o = .error e) : s.serve (h.request o) = s := by
  cases h <;>
  · simp only [Half.write] at refused
    simp only [Half.request, serve, Pass.left, Pass.write, refused]

/-- **When a write with a version that was read is accepted.**  A client reads an object, other
requests are served, and the client writes one half of it with the version it has read.  The write
is accepted if that half is untouched, and also if the object is another one that has been written
as often.  Otherwise it is refused, as a conflict or because there is no object, and changes
nothing. -/
theorem write_commits_iff (clock : Nat) (before between : List Request) (h : Half)
    {ns name : String} {o edited : Object k}
    (got : ((Store.empty clock).after before).get k ns name = some o)
    (key : edited.key = o.key) (version : h.version edited.info = h.version o.info) :
    let read := (Store.empty clock).after before
    let now := read.after between
    let changes := read.changesSince now k o.key
    ((∃ r, h.write now edited = .ok r) ↔
      Untouched h changes ∨ Reborn h (h.version o.info) changes) ∧
    ∀ e, h.write now edited = .error e →
      (e.isConflict ∨ e.isNotFound) ∧ now.serve (h.request edited) = now := by
  intro read now changes
  have sound : read.Sound := (sound_empty clock).after before
  have there : read.version? h k o.key = some (h.version o.info) :=
    version?_of_found (sound.keyed k _ o got ▸ got)
  have life := (sound.lives_after between h k o.key).2
  rw [there] at life
  refine ⟨?_, fun e refused => ⟨refused_by_write refused, serve_of_refused refused⟩⟩
  rw [write_accepted_iff, key, version]
  exact life.same_version_iff

namespace Sample

def tagged (tag : String) : Build :=
  { info := Meta.fresh "" "b1", spec := ⟨"registry.example.com", "web", tag, 1⟩, status := () }

/-- The build as a client has read it, and edited. -/
def kept (tag : String) : Build := (Store.empty 9).accepted (tagged tag)

/-- How the edit comes out after other requests. -/
def outcome (between : List Request) : Option StoreError :=
  match (((Store.empty 9).after [.create (tagged "v1")]).after between).updateSpec (kept "v3") with
  | .ok _ => none
  | .error e => some e

end Sample

/-- A client overwrites a build that it has never seen: the one it has read was deleted, and the
new one's version is one as well. -/
theorem successor_overwritten :
    ¬ ∀ (clock : Nat) (before between : List Request) (h : Half) (k : Kind) (ns name : String)
      (o edited : Object k), ((Store.empty clock).after before).get k ns name = some o →
      edited.key = o.key → h.version edited.info = h.version o.info →
      (∃ r, h.write (((Store.empty clock).after before).after between) edited = .ok r) →
      Untouched h (((Store.empty clock).after before).changesSince
        (((Store.empty clock).after before).after between) k o.key) := by
  intro claimed
  have untouched := claimed 9 [.create (Sample.tagged "v1")]
    [.delete .builds "" "b1", .create (Sample.tagged "v2")] .spec .builds "" "b1"
    (Sample.kept "v1") (Sample.kept "v3") (by decide) (by decide) (by decide)
    ((write_accepted_iff _ _ _).2 (by decide))
  exact absurd (untouched .deleted (by decide)) (by decide)

namespace Sample

/-- The edit is accepted after a write of the status, refused after one of the spec or a deletion,
and accepted once the build has been created anew. -/
theorem edit_after_others :
    outcome [.updateStatus (kept "v1")] = none ∧
      outcome [.updateSpec (kept "v2")] = some (.conflict .builds "b1" 1 2) ∧
      outcome [.delete .builds "" "b1"] = some (.notFound "builds b1") ∧
      ∃ r, Half.spec.write (((Store.empty 9).after [.create (tagged "v1")]).after
        [.delete .builds "" "b1", .create (tagged "v2")]) (kept "v3") = .ok r := by
  refine ⟨by decide, by decide, by decide, ?_⟩
  have got : ((Store.empty 9).after [.create (tagged "v1")]).get .builds "" "b1" =
      some (kept "v1") := by decide
  have key : (kept "v3").key = (kept "v1").key := by decide
  refine (write_commits_iff 9 [.create (tagged "v1")]
    [.delete .builds "" "b1", .create (tagged "v2")] .spec got key (by decide)).1.2 ?_
  exact .inr ⟨[], [], by decide, by decide, by decide⟩

end Sample

end Store
end Cutover
