/-
# Cutover.Proofs.Deployment.Agreement -- releases, split and status after a pass

A pass whose ramp moved leaves a balanced list of releases in the store, the split that routes
by exactly these, and a status that names them (`store_and_routing_agree`).

The split is made from the list that was stored, before anything else could change it, and
expired releases are gone from the store but not from that list.  They have neither role nor
traffic, so the split does not name them and the balance does not notice
(`Carried.exists_gone`).
-/
import Cutover.Proofs.Deployment.Turn
import Cutover.Proofs.Ramp.Balance
import Cutover.Proofs.Release.Recency
import Mathlib.Data.List.Permutation

namespace Cutover.Deployment

set_option autoImplicit false

open Pass Store

variable {s s' : Store} {d : Descriptor} {rs xs ns : List Release} {now : Nat}
  {result : Ramp.Result}

/-! ## The list and its copies -/

/-- What a store does not change about releases, it does not change about a list of them. -/
theorem map_eq_of_held {β : Type} {f : Release → β} (same : ∀ n x, Held n x → f x = f n)
    (held : List.Forall₂ Held ns xs) : xs.map f = ns.map f := by
  induction held with
  | nil => rfl
  | cons here _ ih => rw [List.map_cons, List.map_cons, same _ _ here, ih]

theorem exists_held {i : Nat} {n : Release} (held : List.Forall₂ Held ns xs)
    (at_ : ns[i]? = some n) : ∃ x, xs[i]? = some x ∧ Held n x := by
  induction held generalizing i with
  | nil => cases at_
  | cons here _ ih =>
      cases i with
      | zero =>
          cases at_
          exact ⟨_, rfl, here⟩
      | succ i => exact ih at_

/-- A release that was stored is found again. -/
theorem Filed.exists_held {app target : String} {pairs : List (Release × Release)}
    (filed : Filed app target pairs xs s s') {p : Release × Release} (member : p ∈ pairs) :
    ∃ x ∈ s'.scan .releases (Selector.ofTarget app target), Held p.1 x := by
  obtain ⟨i, at_⟩ := List.getElem?_of_mem member
  have new : (pairs.map (·.1))[i]? = some p.1 := by
    rw [List.getElem?_map, at_]
    rfl
  obtain ⟨x, there, held⟩ := Deployment.exists_held (List.forall₂_map_left_iff.2 filed.held) new
  exact ⟨x, filed.found.mem_iff.2 (List.mem_append_left _ (List.mem_of_getElem? there)), held⟩

theorem forall_spec_held {P : ReleaseSpec → Prop} (held : List.Forall₂ Held ns xs)
    (each : ∀ n ∈ ns, P n.spec) : ∀ x ∈ xs, P x.spec := by
  intro x member
  have copied : xs.map (·.spec) = ns.map (·.spec) := map_eq_of_held (fun n x held => held.spec) held
  have inside : x.spec ∈ ns.map (·.spec) := copied ▸ List.mem_map_of_mem member
  obtain ⟨n, there, same⟩ := List.mem_map.1 inside
  exact same ▸ each n there

theorem totalTraffic_held (held : List.Forall₂ Held ns xs) :
    Ramp.totalTraffic xs = Ramp.totalTraffic ns := by
  rw [Ramp.totalTraffic_eq_sum, Ramp.totalTraffic_eq_sum,
    map_eq_of_held (fun n x held => by rw [held.spec]) held]

theorem balanced_held (held : List.Forall₂ Held ns xs) (balanced : Ramp.Balanced ns) :
    Ramp.Balanced xs := by
  refine balanced.of_faces (map_eq_of_held (fun n x held => ?_) held)
  unfold Ramp.face Object.label?
  rw [held.spec, held.labels]

/-! ## The split -/

/-- The weights of a split are the traffic of its releases. -/
theorem sum_weights (d : Descriptor) (rs : List Release) :
    ((Routing.splitFor d rs).spec.routes.map (·.weight)).sum = Ramp.totalTraffic rs := by
  show (((rs.filter fun r => r.spec.traffic > 0).map Routing.route).map (·.weight)).sum = _
  induction rs with
  | nil => rfl
  | cons r rs ih =>
      rw [totalTraffic_cons, ← ih]
      by_cases some_ : r.spec.traffic > 0
      · rw [List.filter_cons_of_pos (by simpa using some_)]
        rfl
      · rw [List.filter_cons_of_neg (by simpa using some_)]
        omega

/-- Releases without traffic have no route. -/
theorem routes_append {gone : List Release} (idle : ∀ r ∈ gone, r.spec.traffic = 0) :
    (Routing.splitFor d (gone ++ rs)).spec.routes = (Routing.splitFor d rs).spec.routes := by
  show ((gone ++ rs).filter fun r => r.spec.traffic > 0).map Routing.route = _
  have none_ : (gone.filter fun r => r.spec.traffic > 0) = [] := by
    refine List.filter_eq_nil_iff.2 fun r member => ?_
    simp [idle r member]
  rw [List.filter_append, none_, List.nil_append]
  rfl

theorem routes_perm (perm : rs.Perm xs) :
    (Routing.splitFor d rs).spec.routes.Perm (Routing.splitFor d xs).spec.routes :=
  (perm.filter _).map _

/-! ## The releases that are gone -/

/-- A release that is to go has no part in the split. -/
theorem idle_of_expired {r : Release} (member : r ∈ Release.expired xs now) :
    r ∈ xs ∧ r.spec.role ≠ .active ∧ r.spec.role ≠ .target := by
  obtain ⟨inside, expired⟩ := List.mem_filter.1 member
  unfold Release.isExpired at expired
  simp only [Bool.and_eq_true, bne_iff_ne] at expired
  exact ⟨List.mem_of_mem_drop inside, expired.1.1.2, expired.1.2⟩

/-- The list is what is still stored and what is gone, which had no role to play. -/
theorem Carried.exists_gone (carried : Carried d result now xs s') :
    ∃ gone : List Release, xs.Perm (gone ++ stored s' d) ∧
      ∀ r ∈ gone, r ∈ xs ∧ r.spec.role ≠ .active ∧ r.spec.role ≠ .target := by
  let keys := (Release.expired xs now).map (·.key)
  refine ⟨xs.filter fun x => x.key ∈ keys, ?_, fun r member => ?_⟩
  · have split := List.filter_append_perm (fun x : Release => decide (x.key ∈ keys)) xs
    have rest : without keys xs = xs.filter fun x => !decide (x.key ∈ keys) := by
      unfold without
      refine List.filter_congr fun x _ => ?_
      simp
    rw [← rest] at split
    exact split.symm.trans (carried.kept.symm.append_left _)
  · -- Keys tell the releases of the list apart: what shares one with an expired release is it.
    obtain ⟨inside, shared⟩ := List.mem_filter.1 member
    obtain ⟨e, expired, same⟩ := List.mem_map.1 (of_decide_eq_true shared)
    have old := idle_of_expired expired
    rwa [List.inj_on_of_nodup_map carried.distinct old.1 inside same] at old

theorem balanced_append_iff {gone : List Release} (unnoticed : ∀ r ∈ gone, Ramp.Unnoticed r) :
    Ramp.Balanced (gone ++ rs) ↔ Ramp.Balanced rs := by
  induction gone with
  | nil => exact Iff.rfl
  | cons r gone ih =>
      obtain ⟨here, there⟩ := List.forall_mem_cons.1 unnoticed
      exact (Ramp.balanced_cons_iff here).trans (ih there)

/-- Only active and target releases have traffic. -/
def Idle (rs : List Release) : Prop :=
  ∀ r ∈ rs, r.spec.role ≠ .active → r.spec.role ≠ .target → r.spec.traffic = 0

theorem idle_held (held : List.Forall₂ Held ns xs) (idle : Idle ns) : Idle xs :=
  forall_spec_held (P := fun spec => spec.role ≠ .active → spec.role ≠ .target → spec.traffic = 0)
    held idle

/-- What is stored in the end has all the traffic of the list. -/
theorem Carried.stored_total (carried : Carried d result now xs s') (idle : Idle result.releases) :
    Ramp.totalTraffic (stored s' d) = Ramp.totalTraffic result.releases := by
  obtain ⟨gone, perm, spare⟩ := carried.exists_gone
  have none_ : Ramp.totalTraffic gone = 0 := by
    rw [Ramp.totalTraffic_eq_sum]
    refine List.sum_eq_zero_iff_forall_eq_nat.2 fun t member => ?_
    obtain ⟨r, inside, rfl⟩ := List.mem_map.1 member
    obtain ⟨listed, notActive, notTarget⟩ := spare r inside
    exact idle_held carried.held idle r listed notActive notTarget
  have total := totalTraffic_perm perm
  rw [totalTraffic_append, none_, totalTraffic_held carried.held] at total
  omega

/-- The published weights are the traffic of the list. -/
theorem Carried.published_total (carried : Carried d result now xs s') :
    ∃ split, s'.get .trafficSplits d.spec.target d.spec.app = some split ∧
      (split.spec.routes.map (·.weight)).sum = Ramp.totalTraffic result.releases := by
  obtain ⟨split, found, spec⟩ := carried.published
  refine ⟨split, found, ?_⟩
  rw [spec, sum_weights, totalTraffic_held carried.held]

/-! ## Agreement -/

/-- The releases of a descriptor, its split and its status in a store say the same. -/
structure InLine (key : String) (d : Descriptor) (s : Store) : Prop where
  /-- One release is active, at most one is the target, and no other has traffic. -/
  balanced : Ramp.Balanced (stored s d)
  whole : Ramp.totalTraffic (stored s d) = 100
  /-- The routes are those of the stored releases with traffic. -/
  routed : ∃ split, s.get .trafficSplits d.spec.target d.spec.app = some split ∧
    split.spec.routes.Perm
      (((stored s d).filter fun r => r.spec.traffic > 0).map Routing.route) ∧
    (split.spec.routes.map (·.weight)).sum = 100
  /-- The status names the active release, and the target or else the active one. -/
  named : ∃ d' active target, s.getByKey .descriptors key = some d' ∧
    active ∈ stored s d ∧ active.spec.role = .active ∧
    d'.status.activeRelease = active.name ∧
    target ∈ stored s d ∧ d'.status.targetRelease = target.name ∧
    (target.spec.role = .target ∨
      target = active ∧ ∀ r ∈ stored s d, r.spec.role ≠ .target)

/-- A release with a part in the split is not dropped. -/
theorem Carried.mem_stored (carried : Carried d result now xs s') {x : Release} (member : x ∈ xs)
    (role : x.spec.role = .active ∨ x.spec.role = .target) : x ∈ stored s' d := by
  obtain ⟨gone, perm, spare⟩ := carried.exists_gone
  refine (List.mem_append.1 (perm.mem_iff.1 member)).resolve_left fun inside => ?_
  obtain ⟨-, notActive, notTarget⟩ := spare x inside
  rcases role with active | target
  · exact notActive active
  · exact notTarget target

/-- What is stored in the end is balanced if the list is. -/
theorem Carried.balanced_stored (carried : Carried d result now xs s')
    (balanced : Ramp.Balanced result.releases) : Ramp.Balanced (stored s' d) := by
  obtain ⟨gone, perm, spare⟩ := carried.exists_gone
  have listed := balanced_held carried.held balanced
  refine (balanced_append_iff fun r inside => ?_).1 (listed.perm perm.symm)
  obtain ⟨member, notActive, notTarget⟩ := spare r inside
  exact ⟨notActive, notTarget, listed.idle r member notActive notTarget,
    mt (listed.marked r member).1 notTarget⟩

/-- The split routes by the stored releases with traffic. -/
theorem Carried.routed_stored (carried : Carried d result now xs s')
    (idle : Idle result.releases) :
    ∃ split, s'.get .trafficSplits d.spec.target d.spec.app = some split ∧
      split.spec.routes.Perm
        (((stored s' d).filter fun r => r.spec.traffic > 0).map Routing.route) ∧
      (split.spec.routes.map (·.weight)).sum = Ramp.totalTraffic result.releases := by
  obtain ⟨gone, perm, spare⟩ := carried.exists_gone
  obtain ⟨split, found, spec⟩ := carried.published
  refine ⟨split, found, ?_, ?_⟩
  · have none_ : ∀ r ∈ gone, r.spec.traffic = 0 := fun r inside =>
      idle_held carried.held idle r (spare r inside).1 (spare r inside).2.1 (spare r inside).2.2
    rw [spec]
    exact (routes_perm perm).trans (.of_eq (routes_append none_))
  · rw [spec, sum_weights, totalTraffic_held carried.held]

/-- A release at a position of the list is at that position of what has been stored. -/
theorem Carried.exists_at {i : Nat} (carried : Carried d result now xs s')
    (lt : i < result.releases.length) :
    ∃ n x, result.releases[i]? = some n ∧ xs[i]? = some x ∧ x.spec = n.spec ∧
      ((result.releases[i]?.map (·.name)).getD "") = x.name := by
  have at_ := List.getElem?_eq_getElem lt
  obtain ⟨x, there, held⟩ := exists_held carried.held at_
  refine ⟨_, x, at_, there, held.spec, ?_⟩
  rw [at_, held.name]
  rfl

/-- The status names the releases that the plan has made active and target. -/
theorem Carried.named {p : Ramp.Plan} (sound : p.Sound rs)
    (carried : Carried d (p.carryOut d rs now) now xs s') :
    ∃ d' active target, s'.getByKey .descriptors d.key = some d' ∧
      active ∈ stored s' d ∧ active.spec.role = .active ∧
      d'.status.activeRelease = active.name ∧
      target ∈ stored s' d ∧ d'.status.targetRelease = target.name ∧
      (target.spec.role = .target ∨
        target = active ∧ ∀ r ∈ stored s' d, r.spec.role ≠ .target) := by
  have releases : (p.carryOut d rs now).releases = _ := Ramp.releases_carryOut sound
  have length : (p.carryOut d rs now).releases.length = rs.length := by
    rw [releases, Ramp.length_spread]
  obtain ⟨scaledAt, version, described⟩ := carried.described
  obtain ⟨a, active, newActive, activeAt, activeSpec, activeName⟩ :=
    carried.exists_at (length ▸ sound.active_lt)
  obtain ⟨t, target, newTarget, targetAt, targetSpec, targetName⟩ :=
    carried.exists_at (length ▸ sound.target_lt)
  rw [releases] at newActive newTarget
  have isActive : active.spec.role = .active := by
    rw [activeSpec]
    exact (Ramp.active_spread_iff newActive).2 rfl
  have activeStored := carried.mem_stored (List.mem_of_getElem? activeAt) (.inl isActive)
  refine ⟨_, active, target, described, activeStored, isActive,
    (Ramp.activeRelease_carryOut p).trans activeName, ?_⟩
  have reported := (Ramp.targetRelease_carryOut p).trans targetName
  by_cases one : p.target = p.active
  · have same : target = active := by
      rw [one, activeAt] at targetAt
      exact (Option.some.inj targetAt).symm
    refine ⟨same ▸ activeStored, reported, .inr ⟨same, fun r member => ?_⟩⟩
    have none_ : ∀ n ∈ (p.carryOut d rs now).releases, n.spec.role ≠ .target := by
      intro n inside isTarget
      rw [releases] at inside
      obtain ⟨i, there⟩ := List.getElem?_of_mem inside
      exact ((Ramp.target_spread_iff there).1 isTarget).2 one
    obtain ⟨gone, perm, -⟩ := carried.exists_gone
    have listed : r ∈ xs := perm.mem_iff.2 (List.mem_append_right gone member)
    exact forall_spec_held (P := fun spec => spec.role ≠ .target) carried.held none_ r listed
  · have isTarget : target.spec.role = .target := by
      rw [targetSpec]
      exact (Ramp.target_spread_iff newTarget).2 ⟨rfl, one⟩
    exact ⟨carried.mem_stored (List.mem_of_getElem? targetAt) (.inr isTarget), reported,
      .inl isTarget⟩

/-- What a pass that carried out a plan leaves is in line. -/
theorem Carried.inLine {p : Ramp.Plan} (planned : Ramp.planOf? d rs = some p)
    (carried : Carried d (p.carryOut d rs now) now xs s') : InLine d.key d s' := by
  have sound := Ramp.planOf?_sound planned
  have releases : (p.carryOut d rs now).releases = _ := Ramp.releases_carryOut sound
  have balanced : Ramp.Balanced (p.carryOut d rs now).releases := by
    rw [releases]
    exact Ramp.balanced_spread sound
  have total : Ramp.totalTraffic (p.carryOut d rs now).releases = 100 := by
    rw [releases]
    exact Ramp.totalTraffic_spread sound
  constructor
  · exact carried.balanced_stored balanced
  · rw [carried.stored_total balanced.idle, total]
  · rw [← total]
    exact carried.routed_stored balanced.idle
  · exact carried.named sound

/-- **Store and routing agree after a pass.**  A pass that succeeds and whose ramp moved leaves
releases, split and status in line.  Every route is that of a release that is still stored, so
none is of a release that the pass has deleted, and none has the name of one that was in the
same namespace. -/
theorem store_and_routing_agree {key : String} {action : Action} (sound : s.Sound)
    (indexed : s.Indexed) (described : s.getByKey .descriptors key = some d)
    (moves : Ramp.Moves d (lineup s d) now) (done : run key now s = .ok action s') :
    InLine key d s' ∧
      ∀ split, s'.get .trafficSplits d.spec.target d.spec.app = some split →
        ∀ route ∈ split.spec.routes, ∃ r ∈ stored s' d, route = Routing.route r ∧
          s'.getByKey .releases r.key = some r ∧
          ∀ o ∈ stored s d, s'.getByKey .releases o.key = none →
            o.key ≠ r.key ∧ (o.info.ns = r.info.ns → o.name ≠ route.release) := by
  obtain rfl := sound.keyed _ _ d described
  obtain ⟨result, xs, passed, -, carried⟩ :=
    (leads_run sound indexed described now).of_ok done
  obtain ⟨p, planned, passed'⟩ := moves.exists_plan
  cases passed.symm.trans passed'
  have inLine := carried.inLine planned
  refine ⟨inLine, fun split found route member => ?_⟩
  obtain ⟨split', found', routes, -⟩ := inLine.routed
  cases found.symm.trans found'
  obtain ⟨r, inside, rfl⟩ := List.mem_map.1 (routes.mem_iff.1 member)
  have present := (List.mem_filter.1 inside).1
  have there := ((mem_scan carried.sound).1 present).1
  refine ⟨r, present, rfl, there, fun o _ gone => ?_⟩
  have ne : o.key ≠ r.key := by
    intro same
    rw [same, there] at gone
    cases gone
  refine ⟨ne, fun ns name => ne ?_⟩
  have name : o.info.name = r.info.name := name
  unfold Object.key Meta.key
  rw [ns, name]

/-! ## A promotion under way -/

namespace Sample

open Cutover.Sample

def build : Build :=
  { info := { Meta.fresh "" "web-v1" with createdAt := 1, specVersion := 1, statusVersion := 1 }
    spec := ⟨"", "web", "v1", 1⟩
    status := () }

/-- A descriptor that wants four instances and moved traffic at 40. -/
def described : Descriptor := { descriptor 4 with status.deployUpdatedAt := 40 }

/-- The release that gives way, with three quarters of the traffic. -/
def serving : Release :=
  { release "web-1" 10 .active 75 3 with info.labels := Label.ofTarget "web" "prod" }

/-- The release in promotion, with two of four instances available. -/
def promoted : Release :=
  { release "web-2" 20 .target 25 2 with
    info.labels := ((Label.ofTarget "web" "prod").insert Label.targetHash
      described.spec.fingerprint).insert Label.promotionTarget "1"
    status.numAvailable := 2 }

/-- The store before the releases. -/
def base : Store := ((Store.empty 100).commit build ∅ .created).commit described ∅ .created

def store : Store := (base.commit serving ∅ .created).commit promoted ∅ .created

theorem sound_base : base.Sound := ((sound_empty 100).commit rfl _ _).commit rfl _ _

theorem sound_store : store.Sound := (sound_base.commit rfl _ _).commit rfl _ _

theorem indexed_store : store.Indexed :=
  ((((indexed_empty 100).commit_new _ _).commit_new _ _).commit_new _ _).commit_new _ _

/-- Of other kinds than releases the store has what it had before them. -/
theorem agrees_base {k : Kind} (ne : k ≠ .releases) : Agrees k base store :=
  (agrees_commit ne _ _ _ _).trans (agrees_commit ne _ _ _ _)

theorem getByKey_described : store.getByKey .descriptors "web-prod" = some described := by
  rw [(agrees_base (by decide)).getByKey]
  exact getByKey_commit_self ..

theorem get_build : store.get .builds "" described.spec.build = some build := by
  rw [(agrees_base (by decide)).get]
  show ((Store.commit _ described ∅ .created).getByKey .builds "web-v1") = some build
  rw [(agrees_commit (by decide) _ _ _ _).getByKey]
  exact getByKey_commit_self ..

theorem configOf_store : Feedback.configOf store described = none := by
  have none_ (query : Selector) : store.matching .appConfigs query = [] := by
    rw [(agrees_base (by decide)).matching, base, (agrees_commit (by decide) _ _ _ _).matching,
      (agrees_commit (by decide) _ _ _ _).matching, matching_empty]
  unfold Feedback.configOf Configuration.resolve Configuration.appEntries
    Configuration.sharedEntries Configuration.merged
  rw [none_]
  rfl

theorem accepts_serving :
    (Selector.ofTarget "web" "prod").accepts serving.info.labels = true :=
  accepts_ofTarget_self "web" "prod"

theorem accepts_promoted :
    (Selector.ofTarget "web" "prod").accepts promoted.info.labels = true :=
  accepts_insert _ _ (by decide) (by decide)
    (accepts_insert _ _ (by decide) (by decide) (accepts_ofTarget_self "web" "prod"))

theorem stored_perm : (stored store described).Perm [promoted, serving] := by
  have sound₁ : (base.commit serving ∅ .created).Sound := sound_base.commit rfl _ _
  have none_ : base.scan .releases (Selector.ofTarget "web" "prod") = [] := by
    rw [base, (agrees_commit (by decide) _ _ _ _).scan, (agrees_commit (by decide) _ _ _ _).scan,
      scan_empty]
  have first := (puts_commit sound_base (o := serving) rfl ∅ .created).scan sound_base
    accepts_serving
  have second := (puts_commit sound₁ (o := promoted) rfl ∅ .created).scan sound₁ accepts_promoted
  rw [none_] at first
  refine second.trans (.cons promoted ((first.filter _).trans (.of_eq ?_)))
  simp [without, serving, promoted, release, Object.key, Meta.key, Meta.fresh, objectKey]

theorem isCurrent_promoted : isCurrent described.spec.fingerprint
    (Feedback.configOf store described) promoted = true := by
  have hash : promoted.label? Label.targetHash = some described.spec.fingerprint := by
    show (Dict.insert _ Label.promotionTarget "1").get? Label.targetHash = _
    rw [Dict.get?_insert_of_ne _ _ (by decide), Dict.get?_insert_self]
  rw [configOf_store]
  unfold isCurrent
  simp [hash]

theorem any_current : (store.matching .releases
    (Selector.ofTarget described.spec.app described.spec.target)).any
      (isCurrent described.spec.fingerprint (Feedback.configOf store described)) = true := by
  have perm := matching_perm_scan sound_store indexed_store .releases "web" "prod"
  refine List.any_eq_true.2 ⟨promoted, ?_, isCurrent_promoted⟩
  exact (perm.trans stored_perm).mem_iff.2 List.mem_cons_self

/-- The pass takes the releases newest first. -/
theorem lineup_store : lineup store described = [promoted, serving] := by
  have current : (Feedback.releasesOf store described).any (isCurrent described.spec.fingerprint
      (Feedback.configOf store described)) = true := any_current
  rw [lineup_eq get_build, if_pos current, List.append_nil]
  refine Release.sortNewestFirst_eq ?_ (List.pairwise_pair.2 (by decide))
  exact (matching_perm_scan sound_store indexed_store .releases "web" "prod").trans stored_perm

theorem moves_store : Ramp.Moves described (lineup store described) 100 := by
  rw [lineup_store]
  exact ⟨by decide, by decide⟩

/-- The release in promotion gets half of the traffic, and the split says so. -/
theorem promotion_in_line : ∃ action s', run "web-prod" 100 store = .ok action s' ∧
    Ramp.Moves described (lineup store described) 100 ∧ InLine "web-prod" described s' := by
  obtain ⟨action, s', done, -⟩ :=
    ends_run sound_store indexed_store getByKey_described get_build any_current 100
  have agreement :=
    store_and_routing_agree sound_store indexed_store getByKey_described moves_store done
  exact ⟨action, s', done, moves_store, agreement.1⟩

end Sample

end Cutover.Deployment
