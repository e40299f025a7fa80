/-
# Cutover.Proofs.Release.Environment -- what the instances of a release run with

A group that a pass stores for a release has one container.  Its environment starts with the entries
of the release's config map, and then every dependency adds its addresses (`Runs`).

Three kinds of objects are looked up for that, and they are not treated alike.  Without the build or
the descriptor of a dependency the pass fails, before it has written anything.  Without the config
map it goes on as if the release had none (`Configured.missing`), so that a release can run without
its configuration (`group_without_config`).
-/
import Cutover.Proofs.Release.Repetition
import Cutover.Proofs.Store.Feed

namespace Cutover

set_option autoImplicit false

open Pass Store

namespace ReleasePass

variable {s s' : Store} {r : Release} {ns name key : String} {now : Nat}

/-! ## The environment of a group -/

/-- The variables that a release gets from its config map.  One that is not stored is no error. -/
inductive Configured (s : Store) (r : Release) : List EnvVar → Prop
  | unnamed (none_ : r.spec.config = "") : Configured s r []
  | stored (m : ConfigMap) (named : r.spec.config ≠ "")
      (found : s.get .configMaps r.info.ns r.spec.config = some m)
      (ordered : (m.spec.data.entries.map (·.1)).Pairwise (· < ·)) :
      Configured s r (m.spec.data.entries.map fun entry => ⟨entry.1, entry.2⟩)
  | missing (named : r.spec.config ≠ "")
      (absent : s.get .configMaps r.info.ns r.spec.config = none) : Configured s r []

/-- The descriptor of a dependency. -/
def Describes (s : Store) (r : Release) (dep : Dependency) (d : Descriptor) : Prop :=
  s.get .descriptors "" (DescriptorSpec.scopedName dep.name (dep.target.getD r.spec.target)) = some d

/-- One address for each port of a dependency, or for the one port that is named. -/
def addressesOf (dep : Dependency) (d : Descriptor) : List EnvVar :=
  (d.spec.runtime.ports.filter fun p => dep.port.all (· = p.name)).map
    (Workload.addressOf dep.name (Workload.hostname d.spec.target dep.name))

/-- A group runs a release: the build and all dependencies are there, and in the environment of its
container the variables from the config map come first, then the addresses of the dependencies in
the order in which they are declared. -/
def Runs (s : Store) (r : Release) (g : ReplicaGroup) : Prop :=
  ∃ build descriptors container config,
    s.get .builds "" r.spec.build = some build ∧
    List.Forall₂ (Describes s r) r.spec.runtime.dependencies descriptors ∧
    g.spec.template.containers = [container] ∧ Configured s r config ∧
    container.env =
      config ++ (List.zipWith addressesOf r.spec.runtime.dependencies descriptors).flatten

theorem configured (s : Store) (r : Release) : Configured s r (Workload.configEnv
    (if r.spec.config = "" then none else s.get .configMaps r.info.ns r.spec.config)) := by
  by_cases named : r.spec.config = ""
  · rw [if_pos named]
    exact .unnamed named
  · rw [if_neg named]
    cases found : s.get .configMaps r.info.ns r.spec.config with
    | none => exact .missing named found
    | some m => exact .stored m named found (List.pairwise_map.2 m.spec.data.ordered)

theorem addresses_eq_ok {dep : Dependency} {vars : List EnvVar}
    (made : Workload.addresses s r dep = .ok vars) :
    ∃ d, Describes s r dep d ∧ vars = addressesOf dep d := by
  unfold Workload.addresses at made
  simp only at made
  split at made
  · cases made
  · rename_i d found
    cases made
    exact ⟨d, found, rfl⟩

/-- Addresses are found dependency by dependency. -/
theorem exists_of_mapM_addresses {deps : List Dependency} {parts : List (List EnvVar)}
    (made : deps.mapM (Workload.addresses s r) = .ok parts) :
    ∃ ds, List.Forall₂ (Describes s r) deps ds ∧ parts = List.zipWith addressesOf deps ds := by
  induction deps generalizing parts with
  | nil =>
      cases made
      exact ⟨[], .nil, rfl⟩
  | cons dep deps ih =>
      rw [List.mapM_cons] at made
      cases first : Workload.addresses s r dep with
      | error e =>
          rw [first] at made
          cases made
      | ok vars =>
          cases rest : deps.mapM (Workload.addresses s r) with
          | error e =>
              rw [first, rest] at made
              cases made
          | ok more =>
              rw [first, rest] at made
              cases made
              obtain ⟨d, found, rfl⟩ := addresses_eq_ok first
              obtain ⟨ds, described, rfl⟩ := ih rest
              exact ⟨d :: ds, .cons found described, rfl⟩

/-- What a release asks for runs it, and so does everything with that spec. -/
theorem runs_of_desiredGroup {asked g : ReplicaGroup} (asks : desiredGroup s r = .ok asked)
    (same : g.spec = asked.spec) : Runs s r g := by
  unfold desiredGroup at asks
  split at asks
  · cases asks
  · rename_i build built
    unfold Workload.dependencyEnv at asks
    cases made : r.spec.runtime.dependencies.mapM (Workload.addresses s r) with
    | error e =>
        rw [made] at asks
        cases asks
    | ok parts =>
        rw [made] at asks
        cases asks
        obtain ⟨ds, described, rfl⟩ := exists_of_mapM_addresses made
        exact ⟨build, ds, _, _, built, described, by rw [same]; rfl, configured s r, rfl⟩

/-! ## Groups after a pass -/

/-- A group is to be made, and no autoscaler decides its size. -/
structure Wants (s : Store) (r : Release) : Prop where
  wanted : r.spec.numDesired ≠ 0
  unscaled : autoscaledGroup? s r = none

/-- The groups after a release was seen to: its own runs it, if one is to be made; all else was there
before. -/
structure Made (s s' : Store) (r : Release) : Prop where
  own : Wants s r → ∃ g, s'.getByKey .replicaGroups r.key = some g ∧ Runs s r g
  old : ∀ other g, s'.getByKey .replicaGroups other = some g →
    s.getByKey .replicaGroups other = some g ∨ other = r.key ∧ Wants s r

theorem leads_settleGroup_made (sound : s.Sound) (r : Release) (ns name : String) :
    Leads (settleGroup r ns name) s
      (fun _ s' => Made s s' r ∧ (∀ j, j ≠ .replicaGroups → Agrees j s s') ∧ s'.Sound)
      fun _ _ => True := by
  unfold settleGroup
  split_ifs with unwanted
  · refine (ends_deleteGroup s ns name).leads.bind ?_
    rintro - _ rfl
    refine Ends.leads (ends_pure ⟨⟨fun wants => absurd unwanted wants.wanted, ?_⟩,
      fun j ne => agrees_delete ne .., sound.delete ..⟩)
    intro other g found
    rw [getByKey_delete] at found
    split at found
    · cases found
    · exact .inl found
  · refine leads_read ?_
    cases owned : autoscaledGroup? s r with
    | some live =>
        refine Ends.leads (ends_pure ⟨⟨fun wants => ?_, fun _ _ found => .inl found⟩,
          fun j _ => Agrees.refl j s, sound⟩)
        cases owned.symm.trans wants.unscaled
    | none =>
        simp only
        cases asks : desiredGroup s r with
        | error e => exact leads_throw trivial
        | ok group =>
            refine (Ends.leads (ends_apply_alone sound group).within).bind ?_
            rintro ⟨stored, changed⟩ s' ⟨same, found, others, sound', there⟩
            rw [key_of_desiredGroup asks] at found there
            refine Ends.leads (ends_pure ⟨⟨fun _ => ?_, fun other g inside => ?_⟩, others, sound'⟩)
            · exact ⟨stored, found, runs_of_desiredGroup asks same⟩
            · by_cases here : other = r.key
              · exact .inr ⟨here, unwanted, owned⟩
              · exact .inl (there other here ▸ inside)

/-- What a pass can lack, in other words. -/
theorem lacking_iff : Lacking s r ↔ Wants s r ∧ (s.get .builds "" r.spec.build = none ∨
    ∃ dep ∈ r.spec.runtime.dependencies, ∀ d, ¬ Describes s r dep d) := by
  have absent (dep : Dependency) : s.get .descriptors ""
      (DescriptorSpec.scopedName dep.name (dep.target.getD r.spec.target)) = none ↔
        ∀ d, ¬ Describes s r dep d := Option.eq_none_iff_forall_ne_some
  unfold Lacking
  simp only [absent]
  constructor
  · rintro ⟨wanted, unscaled, lacks⟩
    exact ⟨⟨wanted, unscaled⟩, lacks⟩
  · rintro ⟨⟨wanted, unscaled⟩, lacks⟩
    exact ⟨wanted, unscaled, lacks⟩

/-- The groups after a pass over the release of a key. -/
theorem leads_run_made (sound : s.Sound) (key : String) (now : Nat) :
    Leads (run key now) s (fun _ s' =>
      (∀ r, s.get .releases (splitKey key).1 (splitKey key).2 = some r → Made s s' r) ∧
      (s.get .releases (splitKey key).1 (splitKey key).2 = none →
        ∀ other g, s'.getByKey .replicaGroups other = some g →
          s.getByKey .replicaGroups other = some g))
      fun _ _ => True := by
  cases found : s.get .releases (splitKey key).1 (splitKey key).2 with
  | none =>
      refine ((ends_run_gone found now).mono ?_).leads
      rintro - _ ⟨-, rfl⟩
      refine ⟨?_, fun _ other g inside => ?_⟩
      · rintro r ⟨⟩
      rw [getByKey_delete] at inside
      split at inside
      · cases inside
      · exact inside
  | some r =>
      unfold run
      generalize splitKey key = parts at found ⊢
      obtain ⟨ns, name⟩ := parts
      change s.get .releases ns name = some r at found
      refine leads_read ?_
      rw [found]
      refine (leads_settleGroup_made sound r ns name).bind ?_
      rintro group s₁ ⟨made, others, sound₁⟩
      have found₁ : s₁.get .releases ns name = some r := by
        rw [(others _ (by decide)).get, found]
      refine leads_read ?_
      simp only
      split_ifs with differs
      · refine (Ends.leads (ends_modifyStatus sound₁ found₁ _).within.discard).bind ?_
        rintro - s₂ ⟨-, version, replaces⟩
        have agrees := replaces.others .replicaGroups (by decide)
        refine Ends.leads (ends_pure ⟨?_, nofun⟩)
        rintro _ ⟨⟩
        refine ⟨fun wants => ?_, fun other g inside => ?_⟩
        · rw [agrees.getByKey]
          exact made.own wants
        · rw [agrees.getByKey] at inside
          exact made.old other g inside
      · refine Ends.leads (ends_pure ⟨?_, nofun⟩)
        rintro _ ⟨⟩
        exact made

/-- **What a release runs with.**  A pass fails exactly if a group is to be made and the build or the
descriptor of a dependency is missing, and then nothing has been written.  If it succeeds and a group
is to be made for the release, it is stored and runs the release; and no other group is new or
changed.  Of the config map, it is only asked whether it is stored. -/
theorem group_runs_with_stored_config (sound : s.Sound) (key : String) (now : Nat) :
    ((∃ e s', run key now s = .error e s') ↔
      ∃ r, s.get .releases (splitKey key).1 (splitKey key).2 = some r ∧ Wants s r ∧
        (s.get .builds "" r.spec.build = none ∨
          ∃ dep ∈ r.spec.runtime.dependencies, ∀ d, ¬ Describes s r dep d)) ∧
    (∀ e s', run key now s = .error e s' → s' = s) ∧
    ∀ a s', run key now s = .ok a s' →
      (∀ r, s.get .releases (splitKey key).1 (splitKey key).2 = some r → Wants s r →
        ∃ g, s'.getByKey .replicaGroups r.key = some g ∧ Runs s r g) ∧
      ∀ other g, s'.getByKey .replicaGroups other = some g →
        s.getByKey .replicaGroups other ≠ some g →
          ∃ r, s.get .releases (splitKey key).1 (splitKey key).2 = some r ∧ other = r.key ∧
            Wants s r ∧ Runs s r g := by
  have quiet := leads_run_quiet sound key now
  have made := leads_run_made sound key now
  refine ⟨⟨?_, ?_⟩, fun e s' failed => (quiet.of_error failed).2.2, fun a s' done => ⟨?_, ?_⟩⟩
  · rintro ⟨e, s', failed⟩
    obtain ⟨r, found, lacking⟩ := (quiet.of_error failed).1
    exact ⟨r, found, lacking_iff.1 lacking⟩
  · rintro ⟨r, found, lacks⟩
    cases done : run key now s with
    | ok a s' => exact absurd (lacking_iff.2 lacks) ((quiet.of_ok done).2.2.2.2 r found)
    | error e s' => exact ⟨e, s', rfl⟩
  · intro r found wants
    exact ((made.of_ok done).1 r found).own wants
  · intro other g inside new
    cases found : s.get .releases (splitKey key).1 (splitKey key).2 with
    | none => exact absurd ((made.of_ok done).2 found other g inside) new
    | some r =>
        have made := (made.of_ok done).1 r found
        obtain old | ⟨same, wants⟩ := made.old other g inside
        · exact absurd old new
        · obtain ⟨g', stored, runs⟩ := made.own wants
          rw [same, stored] at inside
          obtain rfl := Option.some.inj inside
          exact ⟨r, rfl, same, wants, runs⟩

namespace Sample

open Cutover.Sample

/-- A release with a configuration that depends on another application. -/
def named : Release :=
  { serving with
    spec.config := "web-a1"
    spec.runtime.dependencies := [{ name := "api", target := none, port := some "http" }] }

/-- That application has two ports. -/
def api : Descriptor :=
  { descriptor 2 with
    info.name := "api-prod"
    spec.app := "api"
    spec.runtime.ports := [⟨"admin", 9090, .tcp⟩, ⟨"http", 8080, .tcp⟩] }

/-- The config map of the release. -/
def settings : ConfigMap where
  info := { Meta.fresh "prod" "web-a1" with specVersion := 1, statusVersion := 1 }
  spec := ⟨Dict.ofList [("MODE", "fast"), ("LEVEL", "high")]⟩
  status := ()

def unconfigured : Store :=
  (((Store.empty 100).commit Deployment.Sample.build ∅ .created).commit api ∅ .created).commit
    named ∅ .created

def supplied : Store := unconfigured.commit settings ∅ .created

theorem sound_unconfigured : unconfigured.Sound :=
  (((sound_empty 100).commit rfl _ _).commit rfl _ _).commit rfl _ _

theorem sound_supplied : supplied.Sound := sound_unconfigured.commit rfl _ _

/-- The environments of the containers of a group. -/
def environments (s : Store) : Option (List (List EnvVar)) :=
  (s.getByKey .replicaGroups "prod/web-1").map fun g => g.spec.template.containers.map (·.env)

theorem found_named : unconfigured.getByKey .releases "prod/web-1" = some named :=
  getByKey_commit_self ..

/-- Without the config map the group is made all the same, and the address is all that its container
gets. -/
theorem group_without_config : unconfigured.Sound ∧
    unconfigured.getByKey .releases "prod/web-1" = some named ∧ named.spec.config = "web-a1" ∧
    unconfigured.get .configMaps "prod" "web-a1" = none ∧ environments unconfigured = none ∧
    ∃ s', run "prod/web-1" 200 unconfigured = .ok .awaitChange s' ∧
      environments s' = some [[⟨"API_HTTP_HOST", "api.prod.svc.cluster.local:8080"⟩]] := by
  have before : environments unconfigured = none := by decide +kernel
  have after : environments ((run "prod/web-1" 200).left unconfigured) =
      some [[⟨"API_HTTP_HOST", "api.prod.svc.cluster.local:8080"⟩]] := by decide +kernel
  refine ⟨sound_unconfigured, found_named, rfl, by decide +kernel, before, ?_⟩
  have quiet := leads_run_quiet sound_unconfigured "prod/web-1" 200
  unfold Pass.left at after
  cases done : run "prod/web-1" 200 unconfigured with
  | ok a s' =>
      obtain ⟨rfl, -⟩ := quiet.of_ok done
      rw [done] at after
      exact ⟨s', rfl, after⟩
  | error e s' =>
      obtain ⟨-, -, rfl⟩ := quiet.of_error done
      rw [done, before] at after
      cases after

/-- With it, its entries come first, in key order. -/
theorem group_with_config : Wants supplied named ∧ ∃ a s' g,
    run "prod/web-1" 200 supplied = .ok a s' ∧
      s'.getByKey .replicaGroups "prod/web-1" = some g ∧ Runs supplied named g ∧
      environments s' = some [[⟨"LEVEL", "high"⟩, ⟨"MODE", "fast"⟩,
        ⟨"API_HTTP_HOST", "api.prod.svc.cluster.local:8080"⟩]] := by
  have wants : Wants supplied named := ⟨by decide, by decide +kernel⟩
  have found : supplied.get .releases "prod" "web-1" = some named := by
    rw [supplied, (agrees_commit (by decide) _ _ _ _).get]
    exact found_named
  obtain ⟨-, unchanged, succeeds⟩ :=
    group_runs_with_stored_config sound_supplied "prod/web-1" 200
  have before : environments supplied = none := by decide +kernel
  have after : environments ((run "prod/web-1" 200).left supplied) =
      some [[⟨"LEVEL", "high"⟩, ⟨"MODE", "fast"⟩,
        ⟨"API_HTTP_HOST", "api.prod.svc.cluster.local:8080"⟩]] := by decide +kernel
  unfold Pass.left at after
  refine ⟨wants, ?_⟩
  cases done : run "prod/web-1" 200 supplied with
  | ok a s' =>
      obtain ⟨g, stored, runs⟩ := (succeeds a s' done).1 named found wants
      rw [done] at after
      exact ⟨a, s', g, rfl, stored, runs, after⟩
  | error e s' =>
      obtain rfl := unchanged e s' done
      rw [done, before] at after
      cases after

end Sample

end ReleasePass
end Cutover
