/-
# Cutover.Proofs.Deployment.Unbuilt -- a pass whose build is missing

A pass stores the config map of its descriptor's configuration before it looks for the build
(`withConfigMap`).  Without the build it fails there, and no later part of a pass fails for that
reason (`NeverUnbuilt`), so this is all that such a pass has written (`run_eq_missingBuild_iff`).

It has written nothing exactly if the descriptor has no configuration or the name of its map is
taken (`withConfigMap_eq_self_iff`).  Otherwise a map is left in the store, its index and its feed,
and no release refers to it (`missing_build_leaves_config_map`).  Once it is there the pass can be
repeated any number of times and leaves the store alone (`withConfigMap_idem`).
-/
import Cutover.Proofs.Deployment.Turn

namespace Cutover.Deployment

set_option autoImplicit false

open Pass Store Feedback

variable {s s' : Store} {d : Descriptor} {key b : String} {now : Nat}

/-! ## What is written before the build is looked for -/

theorem commit_ne_self {k : Kind} (s : Store) (o : Object k) (before : Dict String)
    (change : Change) : s.commit o before change ≠ s := by
  intro same
  have longer := congrArg (fun t : Store => t.feed.length) same
  simp [Store.commit] at longer

theorem withConfigMap_eq_self_iff : withConfigMap s d = s ↔
    ∀ c ∈ configOf s d, (s.get .configMaps d.targetNamespace c.2).isSome = true := by
  rcases withConfigMap_cases s d with ⟨taken, same⟩ | ⟨c, resolved, free, stored⟩
  · exact iff_of_true same taken
  · refine iff_of_false ?_ fun taken => ?_
    · rw [stored]
      exact commit_ne_self s _ _ _
    · have named := taken (c, c.mapName d.spec.app) (by rw [configOf, resolved]; rfl)
      rw [free] at named
      cases named

/-- With its map the configuration needs no other. -/
theorem withConfigMap_idem (s : Store) (d : Descriptor) :
    withConfigMap (withConfigMap s d) d = withConfigMap s d := by
  rw [withConfigMap_eq_self_iff, configOf_of_agrees (agrees_withConfigMap (by decide) s d) rfl]
  rcases withConfigMap_cases s d with ⟨taken, same⟩ | ⟨c, resolved, -, stored⟩
  · rw [same]
    exact taken
  · rw [configOf, resolved, stored]
    rintro _ ⟨⟩
    show (Store.getByKey _ .configMaps (s.accepted (Configuration.mapFor d c)).key).isSome = true
    rw [getByKey_commit_self]
    rfl

/-! ## Where a pass fails for a missing build -/

/-- Wherever it starts from, a part of a pass does not fail for a missing build. -/
def NeverUnbuilt {α : Type} (part : Pass DeployError α) : Prop :=
  ∀ s, Leads part s (fun _ _ => True) fun e _ => ∀ b, e ≠ .missingBuild b

section NeverUnbuilt

variable {α β : Type} {part : Pass DeployError α} {next : α → Pass DeployError β}

theorem neverUnbuilt_pure (a : α) : NeverUnbuilt (pure a) := fun _ => Ends.leads (ends_pure trivial)

theorem NeverUnbuilt.bind (first : NeverUnbuilt part) (rest : ∀ a, NeverUnbuilt (next a)) :
    NeverUnbuilt (part >>= next) := fun s => (first s).bind fun a s' _ => rest a s'

theorem NeverUnbuilt.discard (never : NeverUnbuilt part) : NeverUnbuilt (discard part) :=
  fun s => (never s).map

/-- A part with errors of its own does not, as its errors are seen as others. -/
theorem neverUnbuilt_within {wrap : StoreError → DeployError}
    (other : ∀ e b, wrap e ≠ .missingBuild b) (part : Pass StoreError α) :
    NeverUnbuilt (part.within wrap) := by
  intro s
  unfold Leads Pass.within
  cases part s with
  | ok a s' => trivial
  | error e s' => exact other e

theorem neverUnbuilt_store (part : Pass StoreError α) : NeverUnbuilt (part.within .store) :=
  neverUnbuilt_within (by simp) part

theorem neverUnbuilt_carryOut (result : Ramp.Result) (observed : DescriptorStatus)
    (before : List Release) (now : Nat) : NeverUnbuilt (carryOut result observed before now) := by
  unfold carryOut
  refine (neverUnbuilt_store _).bind fun _ => (neverUnbuilt_store _).bind fun releases => ?_
  refine (neverUnbuilt_store _).discard.bind fun _ => ?_
  refine (neverUnbuilt_within (by simp) _).bind fun d => ?_
  exact (neverUnbuilt_store _).discard.bind fun _ => neverUnbuilt_store _

end NeverUnbuilt

theorem leads_deploy_built {build : Build} (built : s.get .builds "" d.spec.build = some build)
    (now : Nat) :
    Leads (deploy d now) s (fun _ _ => True) fun e _ => ∀ b, e ≠ .missingBuild b := by
  unfold deploy
  refine (Ends.leads (ends_configure_any s d)).bind ?_
  rintro config _ ⟨rfl, rfl⟩
  refine leads_read ?_
  rw [(agrees_withConfigMap (by decide) s d).get, built]
  refine leads_read ?_
  simp only
  split
  · rename_i e failed
    refine leads_throw fun b same => ?_
    cases (Ramp.eq_of_pass_error failed).symm.trans same
  · exact (neverUnbuilt_carryOut _ _ _ _).bind (fun _ => neverUnbuilt_pure _) _

theorem leads_deploy_unbuilt (missing : s.get .builds "" d.spec.build = none) (now : Nat) :
    Leads (deploy d now) s (fun _ _ => False) fun e s' =>
      e = .missingBuild d.spec.build ∧ s' = withConfigMap s d := by
  unfold deploy
  refine (Ends.leads (ends_configure_any s d)).bind ?_
  rintro config _ ⟨rfl, rfl⟩
  refine leads_read ?_
  rw [(agrees_withConfigMap (by decide) s d).get, missing]
  exact leads_throw ⟨rfl, rfl⟩

/-- **Where a pass fails for a missing build.**  It finds a descriptor and does not find the
build, and it has stored the configuration and nothing else. -/
theorem run_eq_missingBuild_iff : run key now s = .error (.missingBuild b) s' ↔
    ∃ d, s.getByKey .descriptors key = some d ∧ d.spec.build = b ∧
      s.get .builds "" b = none ∧ s' = withConfigMap s d := by
  have leads : Leads (run key now) s
      (fun _ _ => ∀ d, s.getByKey .descriptors key = some d →
        s.get .builds "" d.spec.build ≠ none)
      fun e s₁ => e = .missingBuild b ∧ s₁ = s' ↔ ∃ d, s.getByKey .descriptors key = some d ∧
        d.spec.build = b ∧ s.get .builds "" b = none ∧ s' = withConfigMap s d := by
    unfold run
    refine leads_read ?_
    cases described : s.getByKey .descriptors key with
    | none =>
        refine ((neverUnbuilt_store _).discard.bind (fun _ => neverUnbuilt_pure _) s).mono ?_ ?_
        · rintro _ _ - d ⟨⟩
        · intro e s₁ other
          refine iff_of_false (fun same => other b same.1) ?_
          rintro ⟨d, ⟨⟩, -⟩
    | some d =>
        simp only
        cases built : s.get .builds "" d.spec.build with
        | some build =>
            refine (leads_deploy_built built now).mono ?_ ?_
            · rintro _ _ - _ ⟨⟩ missing
              rw [built] at missing
              cases missing
            · intro e s₁ other
              refine iff_of_false (fun same => other b same.1) ?_
              rintro ⟨_, ⟨⟩, rfl, missing, -⟩
              rw [built] at missing
              cases missing
        | none =>
            refine (leads_deploy_unbuilt built now).mono (fun _ _ never => never.elim) ?_
            rintro _ _ ⟨rfl, rfl⟩
            constructor
            · rintro ⟨⟨⟩, rfl⟩
              exact ⟨d, rfl, rfl, built, rfl⟩
            · rintro ⟨_, ⟨⟩, rfl, -, rfl⟩
              exact ⟨rfl, rfl⟩
  cases ended : run key now s with
  | ok a s₁ =>
      refine iff_of_false nofun ?_
      rintro ⟨d, described, rfl, missing, -⟩
      exact leads.of_ok ended d described missing
  | error e s₁ => rw [← leads.of_error ended, EStateM.Result.error.injEq]

/-- **What a pass whose build is missing commits.**  Nothing, if the descriptor has no configuration
or its map is there already; otherwise that map, and nothing else.  The pass can be repeated at any
time: it fails again, and then commits nothing. -/
theorem missing_build_commits_at_most_config_map
    (failed : run key now s = .error (.missingBuild b) s') :
    ∃ d, s.getByKey .descriptors key = some d ∧ d.spec.build = b ∧ s.get .builds "" b = none ∧
      (s' = s ↔ ∀ c ∈ configOf s d, (s.get .configMaps d.targetNamespace c.2).isSome = true) ∧
      (s' ≠ s → ∃ c, Configuration.resolve s d = some c ∧
        s.get .configMaps d.targetNamespace (c.mapName d.spec.app) = none ∧
        s' = s.commit (s.accepted (Configuration.mapFor d c)) ∅ .created) ∧
      ∀ later, run key later s' = .error (.missingBuild b) s' := by
  obtain ⟨d, described, rfl, missing, rfl⟩ := run_eq_missingBuild_iff.1 failed
  refine ⟨d, described, rfl, missing, withConfigMap_eq_self_iff, fun ne => ?_, fun later => ?_⟩
  · exact (withConfigMap_cases s d).resolve_left fun still => ne still.2
  · refine run_eq_missingBuild_iff.2 ⟨d, ?_, rfl, ?_, (withConfigMap_idem s d).symm⟩
    · rw [(agrees_withConfigMap (by decide) s d).getByKey]
      exact described
    · rw [(agrees_withConfigMap (by decide) s d).get]
      exact missing

namespace Sample

open Cutover.Sample

/-- A config that is published for the descriptor's application. -/
def mode : AppConfig :=
  { info := { Meta.fresh "" "web-mode" with
      labels := Dict.ofList [(Label.app, "web")], createdAt := 1, specVersion := 1,
      statusVersion := 1 }
    spec := ⟨.app, Dict.ofList [("MODE", "fast")]⟩
    status := () }

/-- A descriptor with a configuration and without a build. -/
def unbuilt : Store := ((Store.empty 100).commit (descriptor 4) ∅ .created).commit mode ∅ .created

theorem described_unbuilt : unbuilt.getByKey .descriptors "web-prod" = some (descriptor 4) := by
  rw [unbuilt, (agrees_commit (by decide) _ _ _ _).getByKey]
  exact getByKey_commit_self ..

theorem unbuilt_fails : run "web-prod" 100 unbuilt =
    .error (.missingBuild "web-v1") (withConfigMap unbuilt (descriptor 4)) :=
  run_eq_missingBuild_iff.2 ⟨descriptor 4, described_unbuilt, rfl, rfl, rfl⟩

theorem exists_configuration : ∃ c, Configuration.resolve unbuilt (descriptor 4) = some c :=
  Option.isSome_iff_exists.1 rfl

/-- The map is created by the first attempt, and every later one leaves the store alone. -/
theorem unbuilt_commits_config_map : ∃ s', run "web-prod" 100 unbuilt =
    .error (.missingBuild "web-v1") s' ∧ s' ≠ unbuilt ∧
      ∀ later, run "web-prod" later s' = .error (.missingBuild "web-v1") s' := by
  obtain ⟨d, described, -, -, same, -, again⟩ :=
    missing_build_commits_at_most_config_map unbuilt_fails
  cases described_unbuilt.symm.trans described
  refine ⟨_, unbuilt_fails, fun still => ?_, again⟩
  obtain ⟨c, resolved⟩ := exists_configuration
  have taken := same.1 still (c, c.mapName "web") (by rw [configOf, resolved]; rfl)
  cases taken

end Sample

/-- The build is missing, and an object and a change are there that were not there before. -/
theorem missing_build_leaves_config_map : Sample.unbuilt.Sound ∧
    ∃ s' map, run "web-prod" 100 Sample.unbuilt = .error (.missingBuild "web-v1") s' ∧
      Sample.unbuilt.getByKey .configMaps map.key = none ∧
      s'.getByKey .configMaps map.key = some map ∧
      s'.feed = Sample.unbuilt.feed ++ [event map .created] := by
  obtain ⟨c, resolved⟩ := Sample.exists_configuration
  have stored : withConfigMap Sample.unbuilt (Sample.descriptor 4) = Sample.unbuilt.commit
      (Sample.unbuilt.accepted (Configuration.mapFor (Sample.descriptor 4) c)) ∅ .created := by
    unfold withConfigMap
    rw [resolved]
    rfl
  refine ⟨((sound_empty 100).commit rfl _ _).commit rfl _ _, _,
    Sample.unbuilt.accepted (Configuration.mapFor (Sample.descriptor 4) c), Sample.unbuilt_fails,
    rfl, ?_, ?_⟩
  · rw [stored, getByKey_commit_self]
  · rw [stored]
    rfl

end Cutover.Deployment
