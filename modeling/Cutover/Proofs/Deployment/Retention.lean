/-
# Cutover.Proofs.Deployment.Retention -- which releases a pass drops

A pass drops a release by its place among the releases of its descriptor, its age and the role
that the ramp has left it (`Ran.dropped_iff`).  Whether it is the release that the descriptor asks
for matters only to the question of whether one has to be cut, and that is settled before.

The two questions part where a descriptor is pointed back at an earlier build.  The earlier
release is asked for, so none is cut; it is also old, out of service and behind ten others, so it
is dropped.  The next pass misses it and cuts it again under its old name
(`dropped_whether_asked_for_or_not`, `asked_for_release_dropped_and_cut_again`).
-/
import Cutover.Proofs.Deployment.Outcome
import Cutover.Proofs.Release.Retention

namespace Cutover.Deployment

set_option autoImplicit false

open Pass Store Feedback

variable {s s' s₁ s₂ : Store} {d : Descriptor} {xs : List Release} {now : Nat}
  {result : Ramp.Result} {build : Build} {key : String} {o x : Release}

/-- A release is what a descriptor asks for: it has its fingerprint and, where there is a
configuration, the name of its config map. -/
def AskedFor (s : Store) (d : Descriptor) (o : Release) : Prop :=
  o.label? Label.targetHash = some d.spec.fingerprint ∧ ∀ c ∈ configOf s d, o.spec.config = c.2

/-! ## What is dropped -/

/-- A release of the lineup has been reworked and stored. -/
theorem Ran.exists_held_at (ran : Ran s d now s' build result s₁ xs s₂) {i : Nat}
    (at_ : (lineup s d)[i]? = some o) :
    ∃ n x, result.releases[i]? = some n ∧ xs[i]? = some x ∧ Rework n o ∧ Held n x := by
  obtain ⟨lt, -⟩ := List.getElem?_eq_some_iff.1 at_
  have new := List.getElem?_eq_getElem (ran.ramped.length.symm ▸ lt)
  obtain ⟨x, there, held⟩ := Deployment.exists_held (ran.ramped.held ran.filed.held) new
  refine ⟨_, x, new, there, ran.ramped.rework (_, o) ?_, held⟩
  exact List.mem_of_getElem? (List.getElem?_zip_eq_some.2 ⟨new, at_⟩)

theorem Ran.length (ran : Ran s d now s' build result s₁ xs s₂) :
    xs.length = (lineup s d).length := by
  rw [← (ran.ramped.held ran.filed.held).length_eq, ran.ramped.length]

/-- A release of the lineup with a key that was taken is the one that took it. -/
theorem Ran.eq_of_stored (ran : Ran s d now s' build result s₁ xs s₂) (sound : s.Sound) {i : Nat}
    (at_ : (lineup s d)[i]? = some x) (found : s.getByKey .releases x.key = some o) : o = x := by
  obtain ⟨n, -, new, -, rework, -⟩ := ran.exists_held_at at_
  rcases (mem_lineup ran.built).1 (List.mem_of_getElem? at_) with listed | ⟨-, cut⟩
  · exact Option.some.inj (found.symm.trans (known_of_listed sound listed).1)
  · have member : (n, x) ∈ result.releases.zip (lineup s d) :=
      List.mem_of_getElem? (List.getElem?_zip_eq_some.2 ⟨new, at_⟩)
    have free := ran.filed.free _ member (congrArg (·.info.isPersisted) cut)
    rw [(ran.untouched _ (by decide) (by decide)).getByKey, found] at free
    cases free

/-- What was stored is still stored when it comes to dropping. -/
theorem Ran.isSome_filed (ran : Ran s d now s' build result s₁ xs s₂)
    (found : s.getByKey .releases key = some o) : (s₂.getByKey .releases key).isSome = true := by
  by_cases written : key ∈ (result.releases.zip (lineup s d)).map (·.2.key)
  · obtain ⟨p, member, rfl⟩ := List.mem_map.1 written
    obtain ⟨x, inside, held⟩ := ran.filed.exists_held member
    have there := ((mem_scan ran.filed.sound).1 inside).1
    rw [held.key, (ran.ramped.rework p member).key] at there
    rw [there]
    rfl
  · rw [ran.filed.there key written, (ran.untouched _ (by decide) (by decide)).getByKey, found]
    rfl

/-- **What a pass drops.**  Of all stored releases it drops those of its lineup that are beyond
the kept ones, old enough and left without a role. -/
theorem Ran.dropped_iff (ran : Ran s d now s' build result s₁ xs s₂) (sound : s.Sound)
    (found : s.getByKey .releases key = some o) :
    s'.getByKey .releases key = none ↔ ∃ i n, (lineup s d)[i]? = some o ∧
      result.releases[i]? = some n ∧ Release.kept ≤ i ∧
      Release.minAge ≤ now - o.info.createdAt ∧ n.spec.role ≠ .active ∧ n.spec.role ≠ .target := by
  have here := sound.keyed _ _ o found
  have expires {n x : Release} (rework : Rework n o) (held : Held n x) :
      Release.isExpired now x = true ↔ Release.minAge ≤ now - o.info.createdAt ∧
        n.spec.role ≠ .active ∧ n.spec.role ≠ .target := by
    have seen : n.info.isPersisted = true :=
      rework.isPersisted.trans (sound.accepted _ _ o found)
    rw [Release.isExpired_iff, and_iff_right held.accepted, held.dated seen, held.spec,
      rework.info]
  have gone : s'.getByKey .releases key = none ↔ key ∈ (Release.expired xs now).map (·.key) := by
    rw [ran.followed.there]
    split
    · rename_i expired
      exact iff_of_true rfl expired
    · rename_i kept
      refine iff_of_false (fun none_ => ?_) kept
      have still := ran.isSome_filed found
      rw [none_] at still
      cases still
  rw [gone, List.mem_map]
  constructor
  · rintro ⟨x, expired, rfl⟩
    obtain ⟨i, there, beyond, old⟩ := Release.mem_expired_iff.1 expired
    obtain ⟨lt, -⟩ := List.getElem?_eq_some_iff.1 there
    have at_ := List.getElem?_eq_getElem (ran.length ▸ lt)
    obtain ⟨n, x', new, there', rework, held⟩ := ran.exists_held_at at_
    cases there.symm.trans there'
    rw [held.key, rework.key] at found
    cases ran.eq_of_stored sound at_ found
    exact ⟨i, n, at_, new, beyond, (expires rework held).1 old⟩
  · rintro ⟨i, n, at_, new, beyond, old⟩
    obtain ⟨n', x, new', there, rework, held⟩ := ran.exists_held_at at_
    cases new.symm.trans new'
    refine ⟨x, Release.mem_expired_iff.2 ⟨i, there, beyond, (expires rework held).2 old⟩, ?_⟩
    rw [held.key, rework.key, here]

/-! ## What is cut again -/

/-- What a pass stores under a key that was free is the release that it cuts, if it has to. -/
theorem Ran.stored_iff_of_free (ran : Ran s d now s' build result s₁ xs s₂) (sound : s.Sound)
    (free : s.getByKey .releases key = none) :
    (∃ r, s'.getByKey .releases key = some r) ↔
      key = (cutFor s d build).key ∧ ∀ o ∈ releasesOf s d, ¬ AskedFor s d o := by
  unfold AskedFor
  rw [← none_isCurrent_iff]
  constructor
  · rintro ⟨r, found⟩
    have filed : s₂.getByKey .releases key = some r := by
      rw [ran.followed.there] at found
      split at found
      · cases found
      · exact found
    have written : key ∈ (result.releases.zip (lineup s d)).map (·.2.key) := by
      by_contra outside
      rw [ran.filed.there key outside, (ran.untouched _ (by decide) (by decide)).getByKey, free]
        at filed
      cases filed
    obtain ⟨p, member, rfl⟩ := List.mem_map.1 written
    rcases (mem_lineup ran.built).1 (List.of_mem_zip member).2 with listed | ⟨none_, cut⟩
    · rw [(known_of_listed sound listed).1] at free
      cases free
    · exact ⟨congrArg (·.key) cut, none_⟩
  · rintro ⟨rfl, none_⟩
    obtain ⟨r, member, new⟩ := ran.exists_new sound none_
    obtain ⟨-, n, rework, held⟩ := ran.eq_cut_of_new sound member new
    have there := ((mem_scan ran.followed.sound).1 member).1
    rw [held.key, rework.key] at there
    exact ⟨r, there⟩

/-- A pass reads builds and configuration, and does not write them. -/
theorem Ran.inputs (ran : Ran s d now s' build result s₁ xs s₂) {j : Kind}
    (input : j = .builds ∨ j = .appConfigs) : Agrees j s s' := by
  rcases input with rfl | rfl
  all_goals exact ((ran.untouched _ (by decide) (by decide)).trans
    (ran.filed.others _ (by decide))).trans (ran.followed.inputs _ (by simp))

section Restated

variable (inputs : Agrees .appConfigs s s') (status : DescriptorStatus) (version : Nat)

include inputs

/-- The status of a descriptor has no say in what is cut, nor in what is asked for. -/
theorem cutFor_restated (build : Build) :
    cutFor s' { d with status, info.statusVersion := version } build = cutFor s d build := by
  unfold cutFor
  rw [configOf_of_agrees inputs rfl]
  rfl

theorem askedFor_restated :
    AskedFor s' { d with status, info.statusVersion := version } x ↔ AskedFor s d x := by
  unfold AskedFor
  rw [configOf_of_agrees inputs rfl]
  exact Iff.rfl

end Restated

section Again

variable (ran : Ran s d now s' build result s₁ xs s₂)

include ran

theorem Ran.built_again : s'.get .builds "" d.spec.build = some build := by
  rw [(ran.inputs (.inl rfl)).get]
  exact ran.built

/-- Where the release that is cut for them is gone, a later pass over the same build and
configuration succeeds. -/
theorem Ran.succeeds_again (gone : s'.getByKey .releases (cutFor s d build).key = none)
    (later : Nat) : ∃ action s'', run d.key later s' = .ok action s'' := by
  obtain ⟨scaledAt, version, described⟩ := ran.followed.described
  rw [← cutFor_restated (ran.inputs (.inr rfl))] at gone
  obtain ⟨action, s'', again, -⟩ :=
    ends_run_free ran.followed.sound described ran.built_again gone later
  exact ⟨action, s'', again⟩

/-- A later pass over the same build and configuration brings a release back exactly if that is
what is cut for them, and nothing that is asked for has been left. -/
theorem Ran.stored_again_iff (gone : s'.getByKey .releases key = none) {later : Nat}
    {action : Action} {s'' : Store} (again : run d.key later s' = .ok action s'') :
    (∃ r, s''.getByKey .releases key = some r) ↔
      key = (cutFor s d build).key ∧ ∀ o ∈ releasesOf s' d, ¬ AskedFor s d o := by
  obtain ⟨scaledAt, version, described⟩ := ran.followed.described
  have sound := ran.followed.sound
  have inputs : Agrees .appConfigs s s' := ran.inputs (.inr rfl)
  obtain ⟨build', result', t₁, ys, t₂, ran'⟩ := (leads_run_filed sound described later).of_ok again
  cases ran'.built.symm.trans ran.built_again
  rw [ran'.stored_iff_of_free sound gone, cutFor_restated inputs]
  refine and_congr_right fun _ => forall₂_congr fun o _ => ?_
  rw [askedFor_restated inputs]

end Again

/-- **What a pass drops, and what the next one cuts again.**  A pass that succeeds drops, of all
stored releases, those of its lineup that are beyond the kept ones, old enough and left without a
role by its ramp, whether they are asked for or not.  With the same build and configuration a
later pass brings a dropped release back exactly if it has the name of what is cut for them and no
other release is listed that is asked for.  If it has the name, every later pass succeeds. -/
theorem dropped_whether_asked_for_or_not {action : Action} (sound : s.Sound)
    (described : s.getByKey .descriptors key = some d) (done : run key now s = .ok action s') :
    ∃ build result, s.get .builds "" d.spec.build = some build ∧
      Ramp.pass d (lineup s d) now = .ok result ∧
      ∀ k o, s.getByKey .releases k = some o →
        (s'.getByKey .releases k = none ↔ ∃ i n, (lineup s d)[i]? = some o ∧
          result.releases[i]? = some n ∧ Release.kept ≤ i ∧
          Release.minAge ≤ now - o.info.createdAt ∧
          n.spec.role ≠ .active ∧ n.spec.role ≠ .target) ∧
        (s'.getByKey .releases k = none → ∀ later,
          (k = (cutFor s d build).key → ∃ action' s'', run key later s' = .ok action' s'') ∧
          ∀ action' s'', run key later s' = .ok action' s'' →
            ((∃ r, s''.getByKey .releases k = some r) ↔ k = (cutFor s d build).key ∧
              ∀ x ∈ releasesOf s' d, ¬ AskedFor s d x)) := by
  obtain rfl := sound.keyed _ _ d described
  obtain ⟨build, result, s₁, xs, s₂, ran⟩ := (leads_run_filed sound described now).of_ok done
  refine ⟨build, result, ran.built, ran.passed, fun k o found => ⟨ran.dropped_iff sound found, ?_⟩⟩
  intro gone later
  constructor
  · rintro rfl
    exact ran.succeeds_again gone later
  · intro action' s'' again
    exact ran.stored_again_iff gone again

/-- A release that is listed after a pass and asked for was there before, and was asked for. -/
theorem Ran.exists_asked (ran : Ran s d now s' build result s₁ xs s₂) (sound : s.Sound)
    (listed : x ∈ releasesOf s' d) (asked : AskedFor s d x) :
    ∃ o, (o ∈ lineup s d ∨ o ∈ stored s d) ∧ AskedFor s d o ∧ o.key = x.key := by
  obtain ⟨found, accepts, -⟩ := known_of_listed ran.followed.sound listed
  have member := (mem_scan ran.followed.sound).2 ⟨found, accepts⟩
  rcases ran.mem_stored member with ⟨p, inside, held⟩ | known
  · have rework := ran.ramped.rework p inside
    refine ⟨p.2, .inl (List.of_mem_zip inside).2, ?_, (held.key.trans rework.key).symm⟩
    obtain ⟨hash, config⟩ := asked
    unfold Object.label? at hash
    rw [held.labels] at hash
    refine ⟨(rework.labels _ (by decide)).symm.trans hash, fun c inside => ?_⟩
    rw [← config c inside, held.spec, rework.spec]
  · exact ⟨x, .inr ((mem_scan sound).2 ⟨known, accepts⟩), asked, rfl⟩

/-! ## A descriptor that is pointed back -/

namespace Sample

open Cutover.Sample

/-- The release of the build that the descriptor names again, out of service. -/
def earlier : Release :=
  let cut := Release.cut described Sample.build described.spec.fingerprint none
  { release cut.name 10 .none 0 0 with info.labels := cutLabels }

/-- The releases of other builds since, of which the last is in service. -/
def since (i : Nat) : Release :=
  { release ("next-" ++ toString i) (20 + i) (if i = 9 then .active else .none)
      (if i = 9 then 100 else 0) (if i = 9 then 4 else 0) with
    info.labels := Label.ofTarget "web" "prod" }

def outdated : List Release := earlier :: (List.range 10).map since

theorem distinct_outdated : Distinct outdated where
  accepted := by
    intro r member
    rcases List.mem_cons.1 member with rfl | member
    · rfl
    · obtain ⟨i, -, rfl⟩ := List.mem_map.1 member
      rfl
  labelled := by
    intro r member
    rcases List.mem_cons.1 member with rfl | member
    · exact accepts_cutLabels
    · obtain ⟨i, -, rfl⟩ := List.mem_map.1 member
      exact accepts_ofTarget_self "web" "prod"
  keys := by
    refine List.nodup_cons.2 ⟨?_, by decide⟩
    intro member
    obtain ⟨r, inside, same⟩ := List.mem_map.1 member
    obtain ⟨i, -, rfl⟩ := List.mem_map.1 inside
    have names := congrArg String.toList same
    simp [earlier, since, release, Release.cut, Release.nameFor, Object.key, Meta.key, Meta.fresh,
      objectKey, Object.name, show described.spec.app = "web" from rfl] at names

theorem key_earlier : (cutFor (holding outdated) described Sample.build).key = earlier.key := by
  unfold cutFor
  rw [configOf_holding]
  rfl

theorem stored_earlier :
    (holding outdated).getByKey .releases earlier.key = some earlier := by
  obtain ⟨sound, scanned⟩ := distinct_outdated.scanned
  exact ((mem_scan sound).1 (scanned.mem_iff.2 List.mem_cons_self)).1

theorem outdated_current : (releasesOf (holding outdated) described).any
    (isCurrent described.spec.fingerprint (configOf (holding outdated) described)) = true :=
  distinct_outdated.current List.mem_cons_self rfl

/-- The release that is asked for comes last, behind ten others. -/
theorem lineup_outdated :
    lineup (holding outdated) described = ((List.range 10).map since).reverse ++ [earlier] := by
  rw [lineup_eq (built_holding _), if_pos outdated_current, List.append_nil]
  refine Release.sortNewestFirst_eq (distinct_outdated.releasesOf.trans ?_) ?_
  · exact ((List.perm_append_singleton ..).trans ((List.reverse_perm _).cons _)).symm
  · refine List.pairwise_append.2 ⟨?_, List.pairwise_singleton .., ?_⟩
    · refine List.pairwise_reverse.2 (List.pairwise_map.2 (List.pairwise_lt_range.imp ?_))
      intro i j lt
      exact Release.recency_of_createdAt_lt rfl rfl (Nat.add_lt_add_left lt 20)
    · intro r member o last
      obtain ⟨i, -, rfl⟩ := List.mem_map.1 (List.mem_reverse.1 member)
      rw [List.mem_singleton.1 last]
      exact Release.recency_of_createdAt_lt rfl rfl (Nat.lt_add_right i (by decide))

theorem planOf?_outdated : Ramp.planOf? described (lineup (holding outdated) described) =
    some ⟨0, 0, 100, 4, false, false⟩ := by
  rw [lineup_outdated]
  decide +kernel

/-- The pass leaves the release without a role. -/
theorem role_earlier {result : Ramp.Result}
    (passed : Ramp.pass described (lineup (holding outdated) described) 300000 = .ok result) :
    ∃ n, result.releases[10]? = some n ∧ n.spec.role = .none := by
  have free : Ramp.hold? described (lineup (holding outdated) described) 300000 = none := by
    rw [lineup_outdated]
    decide
  have at_ : (lineup (holding outdated) described)[10]? = some earlier := by
    rw [lineup_outdated]
    rfl
  cases passed.symm.trans (Ramp.pass_of_planOf? free planOf?_outdated)
  exact ⟨_, Ramp.getElem?_carryOut (Ramp.planOf?_sound planOf?_outdated) at_, rfl⟩

/-- The release is dropped, and no other is asked for. -/
theorem earlier_dropped (ran : Ran (holding outdated) described 300000 s' build result s₁ xs s₂) :
    s'.getByKey .releases earlier.key = none ∧
      ∀ x ∈ releasesOf s' described, ¬ AskedFor (holding outdated) described x := by
  obtain ⟨sound, scanned⟩ := distinct_outdated.scanned
  obtain ⟨n, left, role⟩ := role_earlier ran.passed
  have gone : s'.getByKey .releases earlier.key = none := by
    refine (ran.dropped_iff sound stored_earlier).2 ⟨10, n, ?_, left, le_refl _, by decide, ?_, ?_⟩
    · rw [lineup_outdated]
      rfl
    · rw [role]
      decide
    · rw [role]
      decide
  refine ⟨gone, fun x listed asked => ?_⟩
  obtain ⟨o, before, ⟨hash, -⟩, key⟩ := ran.exists_asked sound listed asked
  have inside : o ∈ outdated := by
    rcases before with member | member
    · rw [lineup_outdated] at member
      simpa [outdated, or_comm] using member
    · exact scanned.mem_iff.1 member
  rcases List.mem_cons.1 inside with rfl | inside
  · rw [key, (known_of_listed ran.followed.sound listed).1] at gone
    cases gone
  · obtain ⟨i, -, rfl⟩ := List.mem_map.1 inside
    have unhashed : (Label.ofTarget "web" "prod").get? Label.targetHash = none := by decide
    exact absurd (unhashed.symm.trans hash) nofun

/-- The release is dropped, and comes back with the next pass. -/
theorem earlier_dropped_and_cut_again : (holding outdated).Sound ∧
    (holding outdated).getByKey .descriptors "web-prod" = some described ∧
    ∃ action s', run "web-prod" 300000 (holding outdated) = .ok action s' ∧
      s'.getByKey .releases earlier.key = none ∧
      ∃ action' s'', run "web-prod" 300000 s' = .ok action' s'' ∧
        ∃ r, s''.getByKey .releases earlier.key = some r := by
  have sound := distinct_outdated.scanned.1
  have known := described_holding outdated
  obtain ⟨action, s', done, build', result', s₁, xs, s₂, ran⟩ :=
    ends_run_filed sound known (built_holding _) outdated_current 300000
  obtain ⟨gone, alone⟩ := earlier_dropped ran
  obtain ⟨build, result, built, -, each⟩ := dropped_whether_asked_for_or_not sound known done
  cases built.symm.trans (built_holding outdated)
  obtain ⟨succeeds, again⟩ := (each _ _ stored_earlier).2 gone 300000
  obtain ⟨action', s'', next⟩ := succeeds key_earlier.symm
  exact ⟨sound, known, action, s', done, gone, action', s'', next,
    (again action' s'' next).2 ⟨key_earlier.symm, alone⟩⟩

end Sample

/-- A stored release has the fingerprint and the configuration of a descriptor.  A pass that
succeeds drops it, and the next one, over the same descriptor, build and configuration, stores a
release under its key again. -/
theorem asked_for_release_dropped_and_cut_again :
    ∃ (s s' s'' : Store) (d d' : Descriptor) (o r : Release) (action action' : Action),
      s.Sound ∧ s.Indexed ∧ s.getByKey .descriptors "web-prod" = some d ∧
      s.getByKey .releases o.key = some o ∧
      o.label? Label.targetHash = some d.spec.fingerprint ∧
      o.spec.config = ((configOf s d).map (·.2)).getD "" ∧
      run "web-prod" 300000 s = .ok action s' ∧ s'.getByKey .releases o.key = none ∧
      s'.getByKey .descriptors "web-prod" = some d' ∧ d'.spec = d.spec ∧
      Agrees .builds s s' ∧ Agrees .appConfigs s s' ∧
      run "web-prod" 300000 s' = .ok action' s'' ∧ s''.getByKey .releases o.key = some r := by
  have sound := Sample.distinct_outdated.scanned.1
  have known := Sample.described_holding Sample.outdated
  obtain ⟨action, s', done, build, result, s₁, xs, s₂, ran⟩ :=
    ends_run_filed sound known (Sample.built_holding _) Sample.outdated_current 300000
  cases ran.built.symm.trans (Sample.built_holding _)
  obtain ⟨gone, alone⟩ := Sample.earlier_dropped ran
  obtain ⟨scaledAt, version, known'⟩ := ran.followed.described
  have free := gone
  rw [← Sample.key_earlier] at free
  obtain ⟨action', s'', next⟩ := ran.succeeds_again free 300000
  obtain ⟨r, again⟩ := (ran.stored_again_iff gone next).2 ⟨Sample.key_earlier.symm, alone⟩
  refine ⟨_, s', s'', Sample.described, _, Sample.earlier, r, action, action', sound,
    Sample.indexed_holding _, known, Sample.stored_earlier, Sample.get?_cutLabels, ?_, done, gone,
    known', rfl, ran.inputs (.inl rfl), ran.inputs (.inr rfl), next, again⟩
  rw [Sample.configOf_holding]
  rfl

end Cutover.Deployment
