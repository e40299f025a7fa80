/-
# Cutover.Proofs.Deployment.Selection -- which release is rolled out

Whether a release is cut is asked by fingerprint, which release is rolled out by recency.  A pass
that is not held reports the newest of the releases that may be given traffic
(`target_is_newest_deployable`).  A listed release with the descriptor's fingerprint and
configuration is therefore reported unless a newer one may be given traffic.

The two questions part where a descriptor is pointed back at an earlier build.  The earlier
release fits, so none is cut, and the later release goes on being rolled out
(`descriptor_pointed_back_keeps_later_release`).
-/
import Cutover.Proofs.Deployment.Outcome

namespace Cutover.Deployment

set_option autoImplicit false

open Pass Store Feedback

variable {s s' s₁ s₂ : Store} {d : Descriptor} {xs : List Release} {now : Nat}
  {result : Ramp.Result} {build : Build}

/-- A pass that is not held reports the newest of its releases that may be given traffic. -/
theorem Ran.exists_newest (ran : Ran s d now s' build result s₁ xs s₂)
    (free : Ramp.hold? d (lineup s d) now = none) {o : Release} (member : o ∈ lineup s d)
    (deployable : Release.isDeployable o = true) :
    ∃ d' r, s'.getByKey .descriptors d.key = some d' ∧ d'.status.targetRelease = r.name ∧
      r ∈ lineup s d ∧ Release.isDeployable r = true ∧
      ∀ x ∈ lineup s d, Release.isDeployable x = true → Release.isNewer x r = false := by
  obtain ⟨i, here⟩ := List.getElem?_of_mem member
  obtain ⟨c, first⟩ := Option.isSome_iff_exists.1 (Release.firstDeployable_isSome here deployable)
  obtain ⟨r, at_, may⟩ := Release.firstDeployable_spec first
  obtain ⟨d', found, target⟩ := ran.exists_target free first at_
  exact ⟨d', r, found, target, List.mem_of_getElem? at_, may,
    Release.not_isNewer_firstDeployable first at_⟩

/-- **Which release is rolled out.**  Let a release be listed that has the descriptor's
fingerprint and, where there is a configuration, the name of its config map, and that is neither
bad nor failed.  A pass that succeeds and is not held then reports the newest of the listed
releases that may be given traffic.  This is that release, or one that is newer. -/
theorem target_is_newest_deployable {key : String} {action : Action} {o : Release}
    (sound : s.Sound) (described : s.getByKey .descriptors key = some d)
    (done : run key now s = .ok action s') (free : Ramp.hold? d (lineup s d) now = none)
    (listed : o ∈ releasesOf s d)
    (hash : o.label? Label.targetHash = some d.spec.fingerprint)
    (config : ∀ c ∈ configOf s d, o.spec.config = c.2)
    (notBad : o.spec.role ≠ .bad) (notFailed : o.status.state ≠ .failed) :
    ∃ d' r, s'.getByKey .descriptors key = some d' ∧ d'.status.targetRelease = r.name ∧
      r ∈ releasesOf s d ∧ Release.isDeployable r = true ∧
      (∀ x ∈ releasesOf s d, Release.isDeployable x = true → Release.isNewer x r = false) ∧
      (Release.isNewer r o = true ∨ d'.status.targetRelease = o.name) := by
  obtain rfl := sound.keyed _ _ d described
  obtain ⟨build, result, s₁, xs, s₂, ran⟩ := (leads_run_filed sound described now).of_ok done
  have current := (any_isCurrent_iff s d).2 ⟨o, listed, hash, config⟩
  have only {x : Release} : x ∈ lineup s d ↔ x ∈ releasesOf s d := by
    rw [mem_lineup ran.built]
    simp [current]
  have deployable : Release.isDeployable o = true := by
    simp [Release.isDeployable, notBad, notFailed]
  obtain ⟨d', r, found, target, member, may, newest⟩ :=
    ran.exists_newest free (only.2 listed) deployable
  refine ⟨d', r, found, target, only.1 member, may, fun x inside => newest x (only.2 inside), ?_⟩
  rw [target]
  exact (Release.isNewer_or_name_eq (newest o (only.2 listed) deployable)).imp_right Eq.symm

/-! ## A descriptor that is pointed back -/

namespace Sample

open Cutover.Sample

/-- The release of the build that the descriptor names again, out of service. -/
def former : Release :=
  { release "web-1" 10 .none 0 0 with info.labels := cutLabels }

/-- The release of the build that the descriptor named before, in service. -/
def latter : Release :=
  { release "web-2" 20 .active 100 4 with info.labels := Label.ofTarget "web" "prod" }

theorem distinct_pointedBack : Distinct [former, latter] where
  accepted := by simp [former, latter, release, Meta.isPersisted]
  labelled := by
    intro r member
    rcases List.mem_pair.1 member with rfl | rfl
    · exact accepts_cutLabels
    · exact accepts_ofTarget_self "web" "prod"
  keys := by decide

theorem hash_latter : latter.label? Label.targetHash = none := by decide

theorem former_listed : former ∈ releasesOf (holding [former, latter]) described :=
  distinct_pointedBack.releasesOf.mem_iff.2 List.mem_cons_self

theorem former_current : (releasesOf (holding [former, latter]) described).any
    (isCurrent described.spec.fingerprint (configOf (holding [former, latter]) described)) =
      true :=
  distinct_pointedBack.current List.mem_cons_self rfl

/-- No release is cut, and the later one comes first. -/
theorem lineup_pointedBack : lineup (holding [former, latter]) described = [latter, former] := by
  rw [lineup_eq (built_holding _), if_pos former_current, List.append_nil]
  refine Release.sortNewestFirst_eq
    (distinct_pointedBack.releasesOf.trans (List.Perm.swap ..)) ?_
  exact List.pairwise_pair.2 (by decide)

theorem free_pointedBack :
    Ramp.hold? described (lineup (holding [former, latter]) described) 100 = none := by
  rw [lineup_pointedBack]
  decide

/-- The later release may be given traffic, so it is the one that is reported. -/
theorem former_overtaken :
    ∃ action s' d', run "web-prod" 100 (holding [former, latter]) = .ok action s' ∧
      s'.getByKey .descriptors "web-prod" = some d' ∧ d'.status.targetRelease = "web-2" := by
  have sound := distinct_pointedBack.scanned.1
  have known := described_holding [former, latter]
  obtain ⟨action, s', done, -⟩ :=
    ends_run_filed sound known (built_holding _) former_current 100
  obtain ⟨d', r, found, target, listed, -, newest, -⟩ :=
    target_is_newest_deployable sound known done free_pointedBack former_listed get?_cutLabels
      (by simp [configOf_holding]) (by decide) (by decide)
  refine ⟨action, s', d', done, found, target.trans ?_⟩
  rcases List.mem_pair.1 (distinct_pointedBack.releasesOf.mem_iff.1 listed) with rfl | rfl
  · have notNewer := newest latter (distinct_pointedBack.releasesOf.mem_iff.2 (by simp)) (by decide)
    exact absurd notNewer (by decide)
  · rfl

end Sample

/-- A stored release has the fingerprint and the configuration of the descriptor and is neither
bad nor failed, and yet a pass that succeeds and is not held names no release that has that
fingerprint. -/
theorem descriptor_pointed_back_keeps_later_release :
    ∃ (s : Store) (d : Descriptor) (action : Action) (s' : Store) (d' : Descriptor),
      s.Sound ∧ s.Indexed ∧ s.getByKey .descriptors "web-prod" = some d ∧
      run "web-prod" 100 s = .ok action s' ∧ Ramp.hold? d (lineup s d) 100 = none ∧
      (∃ o ∈ stored s d, o.label? Label.targetHash = some d.spec.fingerprint ∧
        configOf s d = none ∧ o.spec.config = "" ∧ o.spec.role ≠ .bad ∧
        o.status.state ≠ .failed) ∧
      s'.getByKey .descriptors "web-prod" = some d' ∧
      ∀ o ∈ stored s d, o.label? Label.targetHash = some d.spec.fingerprint →
        d'.status.targetRelease ≠ o.name := by
  obtain ⟨sound, scanned⟩ := Sample.distinct_pointedBack.scanned
  have known := Sample.described_holding [Sample.former, Sample.latter]
  obtain ⟨action, s', done, build, result, s₁, xs, s₂, ran⟩ :=
    ends_run_filed sound known (Sample.built_holding _) Sample.former_current 100
  have first : Release.firstDeployable
      (lineup (Sample.holding [Sample.former, Sample.latter]) Sample.described) = some 0 := by
    rw [Sample.lineup_pointedBack]
    decide
  have at_ : (lineup (Sample.holding [Sample.former, Sample.latter]) Sample.described)[0]? =
      some Sample.latter := by
    rw [Sample.lineup_pointedBack]
    rfl
  obtain ⟨d', found, target⟩ := ran.exists_target Sample.free_pointedBack first at_
  refine ⟨_, Sample.described, action, s', d', sound, Sample.indexed_holding _, known, done,
    Sample.free_pointedBack, ?_, found, ?_⟩
  · exact ⟨Sample.former, scanned.mem_iff.2 List.mem_cons_self, Sample.get?_cutLabels,
      Sample.configOf_holding _, rfl, by decide, by decide⟩
  · intro o member hash
    rcases List.mem_pair.1 (scanned.mem_iff.1 member) with rfl | rfl
    · rw [target]
      decide
    · rw [Sample.hash_latter] at hash
      cases hash

end Cutover.Deployment
