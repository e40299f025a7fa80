/-
# Cutover.Proofs.Feedback.Schedule -- whether the two passes settle a count

The copies of the count in a settled store move as `Copies` do, whatever else its passes
write (`Settled.perform`), so every schedule of passes runs to its end and can be read
off them (`Settled.history`).

A count settles exactly if its copies agree within the bounds of the scale
(`count_settles_iff_copies_agree`).  Bounds that were raised for one round of passes and
lowered again leave copies that do not (`alternating_passes_change_count`).
-/
import Cutover.Proofs.Feedback.Copies
import Cutover.Proofs.Feedback.DeploymentTurn
import Cutover.Proofs.Feedback.ReleaseTurn
import Cutover.Proofs.Ramp.Rollout

namespace Cutover.Feedback

set_option autoImplicit false

variable {s : Store} {d : Descriptor} {r : Release}

/-! ## Schedules on stores -/

/-- The store after a pass, if it succeeds. -/
def after {ε α : Type} : EStateM.Result ε Store α → Option Store
  | .ok _ s => some s
  | .error _ _ => none

/-- One pass over the descriptor or the release of a key. -/
def Turn.perform (descriptor release : String) (s : Store) : Turn → Option Store
  | .deployment now => after (Deployment.run descriptor now s)
  | .release now => after (ReleasePass.run release now s)

/-- The stores before and after each of some passes, if all of them succeed. -/
def history (descriptor release : String) : Store → List Turn → Option (List Store)
  | s, [] => some [s]
  | s, t :: rest =>
      (t.perform descriptor release s).bind fun s' =>
        (history descriptor release s' rest).map (s :: ·)

/-- The count that is wanted of the release of a key. -/
def wantedOf (release : String) (s : Store) : Nat :=
  ((s.getByKey .releases release).map (·.spec.numDesired)).getD 0

/-- The size of the replica group of a release. -/
def sizeOf (release : String) (s : Store) : Nat := groupSize s release

/-- A count within the bounds of a scale; an upper bound below the lower one counts as
equal to it. -/
def bounded (scale : Scale) (n : Nat) : Nat := min (max scale.min n) (max scale.max scale.min)

theorem bounded_idem (scale : Scale) (n : Nat) :
    bounded scale (bounded scale n) = bounded scale n := by
  unfold bounded
  omega

theorem Settled.desiredInstances_eq (settled : Settled s d r) :
    d.desiredInstances = bounded d.spec.scale d.status.numDesired := by
  unfold Object.desiredInstances bounded
  rw [settled.latest]

/-! ## The copies of a settled store -/

def copiesOf (s : Store) (d : Descriptor) (r : Release) : Copies :=
  ⟨r.spec.numDesired, r.status.numDesired, d.status.numDesired, groupSize s r.key⟩

theorem after_of_ends {ε α : Type} {part : Pass ε α} {post : α → Store → Prop}
    (ends : Pass.Ends part s post) : ∃ a s', after (part s) = some s' ∧ post a s' := by
  obtain ⟨a, s', same, holds⟩ := ends
  exact ⟨a, s', by rw [same]; rfl, holds⟩

/-- A pass over a settled store succeeds and moves its copies by a turn. -/
theorem Settled.perform (settled : Settled s d r) (t : Turn) :
    ∃ s' d' r', t.perform d.key r.key s = some s' ∧ Settled s' d' r' ∧ d'.key = d.key ∧
      r'.key = r.key ∧ d'.spec = d.spec ∧
      copiesOf s' d' r' = (copiesOf s d r).turn (bounded d.spec.scale) t := by
  cases t with
  | deployment now =>
      obtain ⟨-, s', performed, d', r', settled', key, spec, key', wanted, seen, mirrored,
        groups⟩ := after_of_ends (settled.ends_deployment now)
      refine ⟨s', d', r', performed, settled', key, key', spec, ?_⟩
      unfold copiesOf Copies.turn
      rw [wanted, seen, mirrored, key', groupSize_of_agrees groups, settled.desiredInstances_eq]
  | release now =>
      obtain ⟨-, s', performed, r', settled', key, spec, seen, size⟩ :=
        after_of_ends (settled.ends_release now)
      refine ⟨s', d, r', performed, settled', rfl, key, rfl, ?_⟩
      unfold copiesOf Copies.turn
      rw [spec, seen, key, size]

/-- Every schedule on a settled store runs to its end as its copies do. -/
theorem Settled.history (settled : Settled s d r) (turns : List Turn) :
    ∃ stores, history d.key r.key s turns = some stores ∧
      stores.map (wantedOf r.key) =
        ((copiesOf s d r).trace (bounded d.spec.scale) turns).map Copies.wanted ∧
      stores.map (sizeOf r.key) =
        ((copiesOf s d r).trace (bounded d.spec.scale) turns).map Copies.group := by
  have wanted {s : Store} {d : Descriptor} {r : Release} (settled : Settled s d r) :
      wantedOf r.key s = (copiesOf s d r).wanted := by
    unfold wantedOf
    rw [settled.found]
    rfl
  induction turns generalizing s d r with
  | nil =>
      refine ⟨[s], rfl, ?_, rfl⟩
      rw [List.map_cons, wanted settled]
      rfl
  | cons t turns ih =>
      obtain ⟨s', d', r', performed, settled', key, key', spec, copies⟩ := settled.perform t
      obtain ⟨stores, run, counts, sizes⟩ := ih settled'
      rw [key, key'] at run
      rw [key', copies, spec] at counts sizes
      refine ⟨s :: stores, ?_, ?_, ?_⟩
      · rw [Feedback.history, performed, Option.bind_some, run]
        rfl
      · rw [List.map_cons, counts, wanted settled]
        rfl
      · rw [List.map_cons, sizes]
        rfl

/-- **A count settles exactly if its copies agree.**  If the count that is wanted of the
release, the one it has seen and the one its descriptor mirrors are one count within the
bounds, no schedule of passes changes what is wanted more than once, nor the size of the
group more than twice.  Otherwise some schedules change both for ever.  No pass fails. -/
theorem count_settles_iff_copies_agree (settled : Settled s d r) :
    ((copiesOf s d r).Agree (bounded d.spec.scale) → ∀ turns, ∃ stores,
      history d.key r.key s turns = some stores ∧
        changes (stores.map (wantedOf r.key)) ≤ 1 ∧ changes (stores.map (sizeOf r.key)) ≤ 2) ∧
    (¬ (copiesOf s d r).Agree (bounded d.spec.scale) → ∀ n, ∃ turns stores,
      history d.key r.key s turns = some stores ∧
        n ≤ changes (stores.map (wantedOf r.key)) ∧ n ≤ changes (stores.map (sizeOf r.key))) := by
  have idem := bounded_idem d.spec.scale
  constructor
  · intro agree turns
    obtain ⟨stores, run, counts, sizes⟩ := settled.history turns
    refine ⟨stores, run, ?_, ?_⟩
    · rw [counts]
      exact Copies.changes_wanted_le idem agree.within
    · rw [sizes]
      exact Copies.changes_group_le idem agree.within
  · intro apart n
    obtain ⟨turns, wants, resizes⟩ := Copies.exists_changes idem 0 n apart
    obtain ⟨stores, run, counts, sizes⟩ := settled.history turns
    refine ⟨turns, stores, run, ?_, ?_⟩
    · rwa [counts]
    · rwa [sizes]

/-! ## A store whose bounds were moved -/

namespace Sample

open Cutover.Sample

def build : Build :=
  { info := { Meta.fresh "" "web-v1" with createdAt := 1, specVersion := 1, statusVersion := 1 }
    spec := ⟨"", "web", "v1", 1⟩
    status := () }

/-- A descriptor with bounds of one and ten that mirrors a count. -/
def described (mirrored : Nat) : Descriptor :=
  { descriptor 1 with
    spec.scale := ⟨1, 10, 0⟩
    status.numDesired := mirrored }

/-- The active release of `described` with the count that is wanted of it and the one it has
seen. -/
def deployed (wanted seen : Nat) : Release :=
  { release "web-1" 10 .active 100 wanted with
    info.labels := (Label.ofTarget "web" "prod").insert Label.targetHash
      (described 0).spec.fingerprint
    status.numDesired := seen }

def store (wanted seen mirrored : Nat) : Store :=
  (((Store.empty 100).commit build ∅ .created).commit (described mirrored) ∅ .created).commit
    (deployed wanted seen) ∅ .created

theorem settled_store (wanted seen mirrored : Nat) :
    Settled (store wanted seen mirrored) (described mirrored) (deployed wanted seen) := by
  have first (j : Kind) (ne : j ≠ .builds) :=
    Store.agrees_commit ne (Store.empty 100) build ∅ .created
  have second (j : Kind) (ne : j ≠ .descriptors) :=
    Store.agrees_commit ne ((Store.empty 100).commit build ∅ .created) (described mirrored) ∅
      .created
  have third (j : Kind) (ne : j ≠ .releases) :=
    Store.agrees_commit ne (((Store.empty 100).commit build ∅ .created).commit
      (described mirrored) ∅ .created) (deployed wanted seen) ∅ .created
  have sound : (store wanted seen mirrored).Sound :=
    (((Store.sound_empty 100).commit rfl _ _).commit rfl _ _).commit rfl _ _
  have built : ((store wanted seen mirrored).get .builds "" "web-v1").isSome := by
    have same := Store.getByKey_commit_self (Store.empty 100) build ∅ .created
    rw [Store.get, store, (third .builds (by decide)).getByKey,
      (second .builds (by decide)).getByKey]
    exact Option.isSome_iff_exists.2 ⟨_, same⟩
  have none_ (k : Kind) (ne : k ≠ .builds ∧ k ≠ .descriptors ∧ k ≠ .releases) (query : Selector) :
      (store wanted seen mirrored).matching k query = [] := by
    rw [store, (third k ne.2.2).matching, (second k ne.2.1).matching, (first k ne.1).matching,
      Store.matching_empty]
  have unconfigured : configOf (store wanted seen mirrored) (described mirrored) = none := by
    unfold configOf Configuration.resolve Configuration.appEntries Configuration.sharedEntries
      Configuration.merged
    rw [none_ .appConfigs (by decide)]
    rfl
  constructor
  · exact sound
  · rw [store, (third .descriptors (by decide)).getByKey]
    exact Store.getByKey_commit_self ..
  · rfl
  · rfl
  · refine (Store.mem_ofTarget sound).2 ⟨Store.getByKey_commit_self .., ?_, ?_, ?_⟩
    · refine Index.mem_keys_relabel.2 (.inl (Index.mem_entriesBeyond.2
        ⟨Label.app, "web", ?_, by simp, rfl⟩))
      rfl
    · rfl
    · rfl
  · rfl
  · intro o member ne
    have found := ((Store.mem_ofTarget sound).1 member).1
    rw [store, Store.getByKey_commit_of_ne _ _ _ _ ne, (second .releases (by decide)).getByKey,
      (first .releases (by decide)).getByKey] at found
    cases found
  · rw [unconfigured]
    unfold Deployment.isCurrent
    simp [deployed, Object.label?]
    rfl
  · exact built
  · exact built
  · intro dep member
    cases member
  · rw [none_ .autoscalers (by decide)]
    simp
  · show objectKey (splitKey "prod/web-1").1 (splitKey "prod/web-1").2 = "prod/web-1"
    decide
  · show '\x1f' ∉ "web".toList ∧ '\x1f' ∉ "prod/web-1".toList
    decide

/-- Copies of three, five and three, which the bounds hold apart, and of eleven, twelve and ten,
which they do not. -/
theorem drifting_changes_and_level_settles :
    (∃ turns stores, history "web-prod" "prod/web-1" (store 3 5 3) turns = some stores ∧
      1000 ≤ changes (stores.map (wantedOf "prod/web-1"))) ∧
    ∀ turns, ∃ stores, history "web-prod" "prod/web-1" (store 11 12 10) turns = some stores ∧
      changes (stores.map (wantedOf "prod/web-1")) ≤ 1 := by
  constructor
  · obtain ⟨turns, stores, run, counts, -⟩ :=
      (count_settles_iff_copies_agree (settled_store 3 5 3)).2 (by decide) 1000
    exact ⟨turns, stores, run, counts⟩
  · intro turns
    obtain ⟨stores, run, counts, -⟩ :=
      (count_settles_iff_copies_agree (settled_store 11 12 10)).1 (by decide) turns
    exact ⟨stores, run, counts⟩

end Sample

/-- Six rounds of the two passes change the count that is wanted from three to five and back,
five times. -/
theorem alternating_passes_change_count :
    ∃ stores, Settled (Sample.store 3 5 3) (Sample.described 3) (Sample.deployed 3 5) ∧
      history "web-prod" "prod/web-1" (Sample.store 3 5 3) (Copies.beats 100 6) = some stores ∧
      changes (stores.map (wantedOf "prod/web-1")) = 5 := by
  have settled := Sample.settled_store 3 5 3
  obtain ⟨stores, run, counts, -⟩ := settled.history (Copies.beats 100 6)
  refine ⟨stores, settled, run, ?_⟩
  have same : stores.map (wantedOf "prod/web-1") = _ := counts
  rw [same]
  decide

end Cutover.Feedback
