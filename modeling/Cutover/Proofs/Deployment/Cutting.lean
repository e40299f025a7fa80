/-
# Cutover.Proofs.Deployment.Cutting -- when a pass cuts a release

A pass cuts a release unless a listed one has the descriptor's fingerprint and the name of its
config map (`isCurrent`).  The new release has both, is stored under a key that was free, and
is never dropped by the pass that cut it (`cuts_iff_no_release_fits`).

A descriptor without configuration asks nothing of the config map.  So where the configuration
of a descriptor has been removed, a release that was cut with it still fits, and nothing is cut
(`removed_configuration_cuts_nothing`).
-/
import Cutover.Proofs.Deployment.Outcome

namespace Cutover.Deployment

set_option autoImplicit false

open Pass Store Feedback

variable {s s' : Store} {d : Descriptor} {now : Nat}

/-- The release that is cut has what the descriptor asks for. -/
theorem cutFor_spec (s : Store) (d : Descriptor) (build : Build) :
    (cutFor s d build).label? Label.targetHash = some d.spec.fingerprint ∧
      (cutFor s d build).spec.config = ((configOf s d).map (·.2)).getD "" := by
  unfold cutFor Release.cut Object.label?
  cases configOf s d with
  | none => exact ⟨Dict.get?_insert_self .., rfl⟩
  | some c =>
      refine ⟨?_, rfl⟩
      simp only [Option.map_some]
      rw [Dict.get?_insert_of_ne _ _ (by decide), Dict.get?_insert_self]

/-- **When a pass cuts a release.**  A pass that succeeds stores a release under a key that was
free exactly if no listed release has the descriptor's fingerprint and, where there is a
configuration, the name of its config map.  Such a release has the fingerprint and that name, or
none, and runs what the descriptor says with its build. -/
theorem cuts_iff_no_release_fits {key : String} {action : Action} (sound : s.Sound)
    (described : s.getByKey .descriptors key = some d) (done : run key now s = .ok action s') :
    ((∃ r ∈ stored s' d, s.getByKey .releases r.key = none) ↔
      ∀ o ∈ releasesOf s d, ¬ (o.label? Label.targetHash = some d.spec.fingerprint ∧
        ∀ c ∈ configOf s d, o.spec.config = c.2)) ∧
    ∀ r ∈ stored s' d, s.getByKey .releases r.key = none →
      r.label? Label.targetHash = some d.spec.fingerprint ∧
        r.spec.config = ((configOf s d).map (·.2)).getD "" ∧
        r.spec.runtime = d.spec.runtime ∧
        ∃ build, s.get .builds "" d.spec.build = some build ∧ r.spec.build = build.name := by
  obtain ⟨build, result, s₁, xs, s₂, ran⟩ := (leads_run_filed sound described now).of_ok done
  have none_iff := none_isCurrent_iff s d
  refine ⟨⟨?_, ?_⟩, ?_⟩
  · rintro ⟨r, member, free⟩
    exact none_iff.1 (ran.eq_cut_of_new sound member free).1
  · intro none_
    exact ran.exists_new sound (none_iff.2 none_)
  · intro r member free
    obtain ⟨-, n, rework, held⟩ := ran.eq_cut_of_new sound member free
    obtain ⟨hash, config⟩ := cutFor_spec s d build
    have spec : r.spec = { (cutFor s d build).spec with
        role := n.spec.role, traffic := n.spec.traffic, numDesired := n.spec.numDesired } :=
      held.spec.trans rework.spec
    refine ⟨?_, ?_, ?_, build, ran.built, ?_⟩
    · unfold Object.label?
      rw [held.labels]
      exact (rework.labels _ (by decide)).trans hash
    · rw [spec]
      exact config
    · rw [spec]
      rfl
    · rw [spec]
      rfl

namespace Sample

open Cutover.Sample

/-- The active release, cut from the descriptor with a configuration. -/
def configured : Release :=
  { release "web-1" 10 .active 100 4 with
    info.labels := cutLabels
    spec.config := "web-0a1b2c" }

theorem distinct_configured : Distinct [configured] where
  accepted := by simp [configured, release, Meta.isPersisted]
  labelled := by
    intro r member
    rw [List.mem_singleton.1 member]
    exact accepts_cutLabels
  keys := List.nodup_singleton _

theorem configured_current : (releasesOf (holding [configured]) described).any
    (isCurrent described.spec.fingerprint (configOf (holding [configured]) described)) = true :=
  distinct_configured.current (List.mem_singleton.2 rfl) rfl

/-- A release with the fingerprint is enough where there is no configuration. -/
theorem configured_release_fits :
    (holding [configured]).Sound ∧
      (holding [configured]).getByKey .descriptors "web-prod" = some described ∧
      ∃ action s', run "web-prod" 100 (holding [configured]) = .ok action s' ∧
        ¬ ∃ r ∈ stored s' described, (holding [configured]).getByKey .releases r.key = none := by
  have sound := distinct_configured.scanned.1
  have known := described_holding [configured]
  obtain ⟨action, s', done, -⟩ :=
    ends_run_filed sound known (built_holding _) configured_current 100
  refine ⟨sound, known, action, s', done, ?_⟩
  rw [(cuts_iff_no_release_fits sound known done).1]
  intro none_
  obtain ⟨o, listed, fits⟩ := (any_isCurrent_iff _ _).1 configured_current
  exact none_ o listed fits

end Sample

/-- The configuration has been removed, and the only release was cut with it: no release has
the fingerprint and no config map, and yet a pass succeeds and cuts none. -/
theorem removed_configuration_cuts_nothing :
    ∃ (s : Store) (d : Descriptor) (action : Action) (s' : Store), s.Sound ∧
      s.getByKey .descriptors "web-prod" = some d ∧ configOf s d = none ∧
      run "web-prod" 100 s = .ok action s' ∧
      (∀ o ∈ releasesOf s d,
        ¬ (o.label? Label.targetHash = some d.spec.fingerprint ∧ o.spec.config = "")) ∧
      ¬ ∃ r ∈ stored s' d, s.getByKey .releases r.key = none := by
  have sound := Sample.distinct_configured.scanned.1
  have known := Sample.described_holding [Sample.configured]
  obtain ⟨action, s', done, build, result, s₁, xs, s₂, ran⟩ :=
    ends_run_filed sound known (Sample.built_holding _) Sample.configured_current 100
  refine ⟨_, Sample.described, action, s', sound, known, Sample.configOf_holding _, done, ?_, ?_⟩
  · intro o listed
    have same : o = Sample.configured := by
      simpa using Sample.distinct_configured.releasesOf.mem_iff.1 listed
    rw [same]
    rintro ⟨-, plain⟩
    exact absurd plain (by decide)
  · rintro ⟨r, member, free⟩
    exact (ran.eq_cut_of_new sound member free).1 Sample.configured_current

end Cutover.Deployment
