/-
# Cutover.Proofs.Release.Repetition -- a pass over a release, made twice

A pass over a release fails before it writes anything (`leads_settleGroup`), exactly if a group is
to be made and its build or a dependency is missing (`Lacking`).

A pass that succeeds leaves a group that is in line with the release (`InLine`): there is none and
no instances are wanted, or it is one whose size an autoscaler decides, or it is as the release
asks for it.  These are not exclusive.  A group that the first pass has made may belong to an
autoscaler by the second, which then looks at the same group on another way.  The status that the
first pass has stored is the one that the second finds (`nextStatus_restated`), a state that sticks
included.  So a second pass has nothing to do (`Quiet.ends_run`).
-/
import Cutover.Proofs.Deployment.Agreement
import Cutover.Proofs.Store.Request
import Mathlib.Data.List.TakeDrop

namespace Cutover

set_option autoImplicit false

open Pass Store

variable {s s' : Store} {r : Release} {ns name key : String} {now : Nat}

/-- A key that does not start with a slash is that of its namespace and name. -/
theorem objectKey_splitKey (plain : key.toList.head? ≠ some '/') :
    objectKey (splitKey key).1 (splitKey key).2 = key := by
  have parts : key.toList.takeWhile (· != '/') ++ key.toList.dropWhile (· != '/') = key.toList :=
    List.takeWhile_append_dropWhile
  unfold splitKey
  rw [List.span_eq_takeWhile_dropWhile]
  cases rest : key.toList.dropWhile (· != '/') with
  | nil => exact if_pos rfl
  | cons c after =>
      obtain rfl : c = '/' := by
        have stops := List.head?_dropWhile_not (· != '/') key.toList
        rw [rest] at stops
        simpa using stops
      rw [rest] at parts
      have named : String.ofList (key.toList.takeWhile (· != '/')) ≠ "" := by
        intro none_
        have empty := congrArg String.toList none_
        rw [String.toList_ofList] at empty
        rw [show key.toList.takeWhile (· != '/') = [] from empty] at parts
        exact plain (by rw [← parts]; rfl)
      show (if _ then _ else _) = key
      rw [if_neg named]
      refine String.ext ?_
      simpa using parts

/-! ## The status -/

namespace Object

theorem nextState_restated (r : Release) (counts : ObservedCounts) (diagnosis : Option Diagnosis)
    (now version : Nat) :
    ({ r with status := r.nextStatus counts diagnosis now, info.statusVersion := version } :
      Release).nextState counts diagnosis = r.nextState counts diagnosis := by
  show (if r.nextState counts diagnosis = .failed ∧ r.spec.role = .none then .failed
    else if diagnosis.any (·.stuck) ∧ r.spec.role ≠ .bad then .failed
    else r.spec.stateFor counts) = _
  by_cases sticks : r.nextState counts diagnosis = .failed ∧ r.spec.role = .none
  · rw [if_pos sticks, sticks.1]
  · rw [if_neg sticks]
    unfold nextState at sticks ⊢
    split_ifs at sticks ⊢ <;> simp_all

/-- A status is what its own release is told again. -/
theorem nextStatus_restated (r : Release) (counts : ObservedCounts) (diagnosis : Option Diagnosis)
    (now version : Nat) :
    ({ r with status := r.nextStatus counts diagnosis now, info.statusVersion := version } :
      Release).nextStatus counts diagnosis now = r.nextStatus counts diagnosis now := by
  have state := nextState_restated r counts diagnosis now version
  unfold nextStatus at state ⊢
  simp only [state]
  congr 1
  split_ifs <;> simp_all

end Object

namespace ReleasePass

/-! ## The group -/

theorem ends_deleteGroup (s : Store) (ns name : String) :
    Ends (deleteGroup ns name) s fun _ s' => s' = (s.delete .replicaGroups ns name).2 :=
  Ends.within (ends_write rfl rfl)

/-- The group of a release that is gone is deleted. -/
theorem ends_run_gone (gone : s.get .releases (splitKey key).1 (splitKey key).2 = none)
    (now : Nat) : Ends (run key now) s fun a s' => a = .awaitChange ∧
      s' = (s.delete .replicaGroups (splitKey key).1 (splitKey key).2).2 := by
  unfold run
  generalize splitKey key = parts at gone ⊢
  obtain ⟨ns, name⟩ := parts
  refine ends_read ?_
  simp only [gone]
  exact (ends_deleteGroup s ns name).bind fun _ _ same => ends_pure ⟨rfl, same⟩

/-- The group of a release, if it has one, is in line with it. -/
inductive InLine (s : Store) (r : Release) : Option ReplicaGroup → Prop
  | none (unwanted : r.spec.numDesired = 0) (free : s.getByKey .replicaGroups r.key = .none) :
      InLine s r .none
  | scaled (live : ReplicaGroup) (owned : autoscaledGroup? s r = some live) : InLine s r (some live)
  | asked (wanted : r.spec.numDesired ≠ 0) (stored group : ReplicaGroup)
      (found : s.getByKey .replicaGroups r.key = some stored)
      (asks : desiredGroup s r = .ok group) (same : sameSpec stored group = true) :
      InLine s r (some stored)

theorem autoscaledGroup?_eq_some {live : ReplicaGroup} (owned : autoscaledGroup? s r = some live) :
    r.spec.numDesired ≠ 0 ∧ s.getByKey .replicaGroups r.key = some live := by
  unfold autoscaledGroup? at owned
  split at owned
  · cases owned
  · rename_i open_
    obtain ⟨found, -⟩ := Option.filter_eq_some_iff.1 owned
    simp only [Bool.or_eq_true, decide_eq_true_eq, not_or] at open_
    exact ⟨open_.2, found⟩

theorem key_of_desiredGroup {group : ReplicaGroup} (asks : desiredGroup s r = .ok group) :
    group.key = r.key := by
  unfold desiredGroup at asks
  split at asks
  · cases asks
  · cases env : Workload.dependencyEnv s r with
    | error e =>
        rw [env] at asks
        cases asks
    | ok dependencies =>
        rw [env] at asks
        cases asks
        rfl

theorem InLine.isSome_iff {group : Option ReplicaGroup} (inLine : InLine s r group) :
    (s.getByKey .replicaGroups r.key).isSome = true ↔ 0 < r.spec.numDesired := by
  cases inLine with
  | none unwanted free => simp [unwanted, free]
  | scaled live owned =>
      obtain ⟨wanted, found⟩ := autoscaledGroup?_eq_some owned
      simp [found, Nat.pos_of_ne_zero wanted]
  | asked wanted stored group found => simp [found, Nat.pos_of_ne_zero wanted]

theorem autoscaledGroup?_of_agrees (groups : Agrees .replicaGroups s s')
    (autoscalers : Agrees .autoscalers s s') (r : Release) :
    autoscaledGroup? s' r = autoscaledGroup? s r := by
  unfold autoscaledGroup?
  rw [groups.get, autoscalers.matching]

theorem desiredGroup_of_agrees (builds : Agrees .builds s s') (maps : Agrees .configMaps s s')
    (descriptors : Agrees .descriptors s s') (r : Release) :
    desiredGroup s' r = desiredGroup s r := by
  unfold desiredGroup Workload.dependencyEnv Workload.addresses
  simp only [builds.get, maps.get, descriptors.get]

/-- The release gets another status, and nothing else changes. -/
theorem InLine.restate {group : Option ReplicaGroup} (inLine : InLine s r group)
    (others : ∀ j, j ≠ .releases → Agrees j s s') (status : ReleaseStatus) (version : Nat) :
    InLine s' { r with status, info.statusVersion := version } group := by
  cases inLine with
  | none unwanted free =>
      refine .none unwanted ?_
      rw [(others _ (by decide)).getByKey]
      exact free
  | scaled live owned =>
      refine .scaled live ?_
      rw [autoscaledGroup?_of_agrees (others _ (by decide)) (others _ (by decide))]
      exact owned
  | asked wanted stored group found asks same =>
      refine InLine.asked ?_ stored group ?_ ?_ same
      · exact wanted
      · rw [(others _ (by decide)).getByKey]
        exact found
      · rw [desiredGroup_of_agrees (others _ (by decide)) (others _ (by decide))
          (others _ (by decide))]
        exact asks

/-- A group that is in line is found, and left alone. -/
theorem InLine.ends_settleGroup {group : Option ReplicaGroup} (inLine : InLine s r group)
    (reached : objectKey ns name = r.key) :
    Ends (settleGroup r ns name) s fun found s' => found = group ∧ s' = s := by
  unfold settleGroup
  cases inLine with
  | none unwanted free =>
      rw [if_pos unwanted]
      have kept : (s.delete .replicaGroups ns name).2 = s := by
        unfold Store.delete
        simp only [reached, free]
      have deleted : Ends (deleteGroup ns name) s fun _ s' => s' = s :=
        Ends.within (ends_write rfl kept)
      refine deleted.bind ?_
      rintro - _ rfl
      exact ends_pure ⟨rfl, rfl⟩
  | scaled live owned =>
      rw [if_neg (autoscaledGroup?_eq_some owned).1]
      refine ends_read ?_
      simp only [owned]
      exact ends_pure ⟨rfl, rfl⟩
  | asked wanted stored group found asks same =>
      rw [if_neg wanted]
      refine ends_read ?_
      cases owned : autoscaledGroup? s r with
      | some live =>
          -- an autoscaler has come to it; the group is the one that is stored
          cases (autoscaledGroup?_eq_some owned).2.symm.trans found
          exact ends_pure ⟨rfl, rfl⟩
      | none =>
          simp only [asks]
          have found' : s.getByKey .replicaGroups group.key = some stored := by
            rw [key_of_desiredGroup asks]
            exact found
          refine (ends_apply_stored_same found' same).within.bind ?_
          rintro ⟨_, changed⟩ _ ⟨rfl, rfl⟩
          exact ends_pure ⟨rfl, rfl⟩

/-- The error of a pass over a release. -/
def Missing (e : ReleaseError) : Prop :=
  (∃ build, e = .missingBuild build) ∨ ∃ app target, e = .missingDependency app target

/-- A group is to be made for a release, and the build or the descriptor of a dependency is not
there. -/
def Lacking (s : Store) (r : Release) : Prop :=
  r.spec.numDesired ≠ 0 ∧ autoscaledGroup? s r = none ∧
    (s.get .builds "" r.spec.build = none ∨ ∃ dep ∈ r.spec.runtime.dependencies,
      s.get .descriptors ""
        (DescriptorSpec.scopedName dep.name (dep.target.getD r.spec.target)) = none)

section MapM

variable {ε α β : Type} {f : α → Except ε β} {xs : List α} {x : α} {e : ε}

theorem exists_of_mapM_error (fails : xs.mapM f = .error e) : ∃ x ∈ xs, f x = .error e := by
  induction xs with
  | nil => cases fails
  | cons x xs ih =>
      rw [List.mapM_cons] at fails
      cases first : f x with
      | error e' =>
          rw [first] at fails
          cases fails
          exact ⟨x, List.mem_cons_self, first⟩
      | ok y =>
          cases rest : xs.mapM f with
          | ok ys =>
              rw [first, rest] at fails
              cases fails
          | error e' =>
              rw [first, rest] at fails
              cases fails
              obtain ⟨x', member, failed⟩ := ih rest
              exact ⟨x', List.mem_cons_of_mem _ member, failed⟩

theorem exists_mapM_error (member : x ∈ xs) (fails : f x = .error e) :
    ∃ e', xs.mapM f = .error e' := by
  induction xs with
  | nil => cases member
  | cons y ys ih =>
      rw [List.mapM_cons]
      cases first : f y with
      | error e' => exact ⟨e', rfl⟩
      | ok z =>
          rcases List.mem_cons.1 member with rfl | later
          · rw [fails] at first
            cases first
          · obtain ⟨e', rest⟩ := ih later
            rw [rest]
            exact ⟨e', rfl⟩

end MapM

theorem missing_of_desiredGroup {e : ReleaseError} (fails : desiredGroup s r = .error e) :
    Missing e ∧ (s.get .builds "" r.spec.build = none ∨ ∃ dep ∈ r.spec.runtime.dependencies,
      s.get .descriptors ""
        (DescriptorSpec.scopedName dep.name (dep.target.getD r.spec.target)) = none) := by
  unfold desiredGroup at fails
  split at fails
  · rename_i unbuilt
    cases fails
    exact ⟨.inl ⟨_, rfl⟩, .inl unbuilt⟩
  · unfold Workload.dependencyEnv at fails
    cases envs : r.spec.runtime.dependencies.mapM (Workload.addresses s r) with
    | ok found =>
        rw [envs] at fails
        cases fails
    | error e' =>
        rw [envs] at fails
        cases fails
        obtain ⟨dep, member, failed⟩ := exists_of_mapM_error envs
        unfold Workload.addresses at failed
        simp only at failed
        split at failed
        · rename_i undescribed
          cases failed
          exact ⟨.inr ⟨_, _, rfl⟩, .inr ⟨dep, member, undescribed⟩⟩
        · cases failed

/-- A group that lacks something is not made. -/
theorem Lacking.desiredGroup_ne_ok (lacking : Lacking s r) (group : ReplicaGroup) :
    desiredGroup s r ≠ .ok group := by
  obtain ⟨-, -, unbuilt | ⟨dep, member, undescribed⟩⟩ := lacking
  · unfold desiredGroup
    rw [unbuilt]
    exact nofun
  · have failed : Workload.addresses s r dep =
        .error (.missingDependency dep.name (dep.target.getD r.spec.target)) := by
      unfold Workload.addresses
      simp only [undescribed]
    obtain ⟨e, envs⟩ := exists_mapM_error member failed
    unfold desiredGroup Workload.dependencyEnv
    rw [envs]
    split
    · exact nofun
    · exact nofun

/-- **The group is brought in line**, or cannot be made, and then nothing has been written. -/
theorem leads_settleGroup (sound : s.Sound) (reached : objectKey ns name = r.key) :
    Leads (settleGroup r ns name) s
      (fun group s' => ¬ Lacking s r ∧ InLine s' r group ∧
        (∀ j, j ≠ .replicaGroups → Agrees j s s') ∧ s'.Sound)
      fun e s' => Lacking s r ∧ Missing e ∧ s' = s := by
  unfold settleGroup
  split_ifs with unwanted
  · refine (ends_deleteGroup s ns name).leads.bind ?_
    rintro - _ rfl
    refine Ends.leads (ends_pure ⟨fun lacking => lacking.1 unwanted, .none unwanted ?_,
      fun j ne => agrees_delete ne .., sound.delete ..⟩)
    rw [getByKey_delete, if_pos reached.symm]
  · refine leads_read ?_
    cases owned : autoscaledGroup? s r with
    | some live =>
        refine Ends.leads (ends_pure ⟨fun lacking => ?_, .scaled live owned,
          fun j _ => Agrees.refl j s, sound⟩)
        rw [lacking.2.1] at owned
        cases owned
    | none =>
        cases asks : desiredGroup s r with
        | error e =>
            obtain ⟨missing, lacks⟩ := missing_of_desiredGroup asks
            exact leads_throw ⟨⟨unwanted, owned, lacks⟩, missing, rfl⟩
        | ok group =>
            refine (Ends.leads (ends_apply_same sound group).within).bind ?_
            rintro ⟨stored, changed⟩ s' ⟨same, found, others, sound'⟩
            refine Ends.leads (ends_pure ⟨fun lacking => lacking.desiredGroup_ne_ok group asks,
              .asked unwanted stored group ?_ ?_ same, others, sound'⟩)
            · rw [← key_of_desiredGroup asks]
              exact found
            · rw [desiredGroup_of_agrees (others _ (by decide)) (others _ (by decide))
                (others _ (by decide))]
              exact asks

/-! ## The pass -/

theorem diagnosis?_of_agrees (instances : Agrees .instances s s') (r : Release) (ns name : String)
    (counts : ObservedCounts) (now : Nat) :
    diagnosis? s' r ns name counts now = diagnosis? s r ns name counts now := by
  unfold diagnosis? instancesOf
  rw [instances.matching]

/-- A pass over a release has nothing to do at a time. -/
inductive Quiet (s : Store) (ns name : String) (now : Nat) : Prop
  | gone (free : s.get .releases ns name = none) (without : s.get .replicaGroups ns name = none)
  | told (r : Release) (group : Option ReplicaGroup) (found : s.get .releases ns name = some r)
      (inLine : InLine s r group)
      (status : r.nextStatus (.ofGroup group)
        (diagnosis? s r ns name (.ofGroup group) now) now = r.status)

/-- The release has a group exactly if it is there and instances are wanted of it. -/
theorem Quiet.isSome_iff (quiet : Quiet s ns name now) (sound : s.Sound) :
    (s.get .replicaGroups ns name).isSome = true ↔
      ∃ r, s.get .releases ns name = some r ∧ 0 < r.spec.numDesired := by
  cases quiet with
  | gone free without => simp [free, without]
  | told r group found inLine status =>
      have key : r.key = objectKey ns name := sound.keyed _ _ r found
      have sized := inLine.isSome_iff
      rw [key] at sized
      rw [Store.get, sized, found]
      simp

/-- A pass that has nothing to do writes nothing. -/
theorem Quiet.ends_run (quiet : Quiet s (splitKey key).1 (splitKey key).2 now)
    (reached : objectKey (splitKey key).1 (splitKey key).2 = key) (sound : s.Sound) :
    Ends (run key now) s fun a s' => a = .awaitChange ∧ s' = s := by
  unfold run
  generalize splitKey key = parts at quiet reached ⊢
  obtain ⟨ns, name⟩ := parts
  refine ends_read ?_
  cases quiet with
  | gone free without =>
      have kept : (s.delete .replicaGroups ns name).2 = s := by
        unfold Store.delete
        simp only [show s.getByKey .replicaGroups (objectKey ns name) = none from without]
      have deleted : Ends (deleteGroup ns name) s fun _ s' => s' = s :=
        Ends.within (ends_write rfl kept)
      simp only [free]
      refine deleted.bind ?_
      rintro - _ rfl
      exact ends_pure ⟨rfl, rfl⟩
  | told r group found inLine status =>
      simp only [found]
      refine (inLine.ends_settleGroup (sound.keyed _ _ r found).symm).bind ?_
      rintro _ _ ⟨rfl, rfl⟩
      refine ends_read ?_
      rw [if_neg (not_not_intro status)]
      exact ends_pure ⟨rfl, rfl⟩

/-- **A pass over a release leaves nothing to do**, or fails and has written nothing. -/
theorem leads_run_quiet (sound : s.Sound) (key : String) (now : Nat) :
    Leads (run key now) s
      (fun a s' => a = .awaitChange ∧ s'.Sound ∧
        Quiet s' (splitKey key).1 (splitKey key).2 now ∧
        (s'.get .releases (splitKey key).1 (splitKey key).2).map (·.spec) =
          (s.get .releases (splitKey key).1 (splitKey key).2).map (·.spec) ∧
        ∀ r ∈ s.get .releases (splitKey key).1 (splitKey key).2, ¬ Lacking s r)
      fun e s' => (∃ r ∈ s.get .releases (splitKey key).1 (splitKey key).2, Lacking s r) ∧
        Missing e ∧ s' = s := by
  unfold run
  generalize splitKey key = parts
  obtain ⟨ns, name⟩ := parts
  refine leads_read ?_
  cases found : s.get .releases ns name with
  | none =>
      refine (ends_deleteGroup s ns name).leads.bind ?_
      rintro - _ rfl
      have still : (s.delete .replicaGroups ns name).2.get .releases ns name = none := by
        rw [(agrees_delete (by decide) s ns name).get, found]
      refine Ends.leads (ends_pure ⟨rfl, sound.delete .., .gone still ?_, ?_, ?_⟩)
      · show Store.getByKey _ _ _ = none
        rw [getByKey_delete, if_pos rfl]
      · rw [still]
      · intro r absent
        cases absent
  | some r =>
      have reached : objectKey ns name = r.key := (sound.keyed _ _ r found).symm
      refine ((leads_settleGroup sound reached).mono (fun _ _ settled => settled) ?_).bind ?_
      · rintro e s' ⟨lacking, stopped⟩
        exact ⟨⟨r, rfl, lacking⟩, stopped⟩
      rintro group s₁ ⟨made, inLine, others, sound₁⟩
      have made : ∀ r' ∈ some r, ¬ Lacking s r' := by
        rintro _ ⟨⟩
        exact made
      have found₁ : s₁.get .releases ns name = some r := by
        rw [(others _ (by decide)).get, found]
      refine leads_read ?_
      simp only
      split_ifs with differs
      · refine (Ends.leads (ends_modifyStatus sound₁ found₁ _).within.discard).bind ?_
        rintro - s₂ ⟨-, version, replaces⟩
        have found₂ := replaces.here
        rw [← reached] at found₂
        refine Ends.leads (ends_pure ⟨rfl, replaces.sound, ?_, ?_, made⟩)
        · refine .told _ group found₂ (inLine.restate replaces.others _ _) ?_
          rw [diagnosis?_of_agrees (replaces.others _ (by decide))]
          exact r.nextStatus_restated _ _ now version
        · rw [show s₂.get .releases ns name = some _ from found₂]
          rfl
      · exact Ends.leads (ends_pure ⟨rfl, sound₁,
          .told r group found₁ inLine (not_not.1 differs), by rw [found₁], made⟩)

/-- **A pass over a release, made twice.**  It fails exactly if a group is to be made and its build
or a dependency is missing; then it says so, and the store is as it was.  If it succeeds, the
release has a group exactly if it is there and instances are wanted of it, and the same pass again
leaves the store alone. -/
theorem release_pass_fails_cleanly_and_repeats (sound : s.Sound)
    (plain : key.toList.head? ≠ some '/') (now : Nat) :
    ((∃ e s', run key now s = .error e s') ↔ ∃ r ∈ s.getByKey .releases key, Lacking s r) ∧
    (∀ e s', run key now s = .error e s' → s' = s ∧
      ((∃ build, e = .missingBuild build) ∨ ∃ app target, e = .missingDependency app target)) ∧
    ∀ a s', run key now s = .ok a s' →
      ((s'.getByKey .replicaGroups key).isSome = true ↔
        ∃ r, s.getByKey .releases key = some r ∧ 0 < r.spec.numDesired) ∧
      run key now s' = .ok a s' := by
  have leads := leads_run_quiet sound key now
  have reached := objectKey_splitKey plain
  unfold Store.get at leads
  rw [reached] at leads
  refine ⟨⟨?_, ?_⟩, ?_, ?_⟩
  · rintro ⟨e, s', failed⟩
    exact (leads.of_error failed).1
  · rintro ⟨r, found, lacking⟩
    cases ended : run key now s with
    | ok a s' => exact absurd lacking ((leads.of_ok ended).2.2.2.2 r found)
    | error e s' => exact ⟨e, s', rfl⟩
  · intro e s' failed
    obtain ⟨-, missing, same⟩ := leads.of_error failed
    exact ⟨same, missing⟩
  · intro a s' done
    obtain ⟨rfl, sound', quiet, kept, -⟩ := leads.of_ok done
    constructor
    · have wanted (t : Store) : (∃ r, t.getByKey .releases key = some r ∧ 0 < r.spec.numDesired) ↔
          ∃ x, (t.getByKey .releases key).map (·.spec) = some x ∧ 0 < x.numDesired := by simp
      have sized := quiet.isSome_iff sound'
      unfold Store.get at sized
      rw [reached] at sized
      rw [sized, wanted, wanted, kept]
    · obtain ⟨_, _, again, rfl, rfl⟩ := quiet.ends_run reached sound'
      exact again

namespace Sample

open Cutover.Sample

/-- An active release without a group. -/
def serving : Release := release "web-1" 10 .active 100 3

/-- An autoscaler that is bound to the release. -/
def scaler : Autoscaler :=
  { info := { Meta.fresh "prod" "web-scaler" with
      labels := (∅ : Dict String).insert Label.release "web-1"
      createdAt := 1, specVersion := 1, statusVersion := 1 }
    spec := ⟨"web-1", 1, 9, 80⟩
    status := default }

def ungrouped : Store :=
  (((Store.empty 100).commit Deployment.Sample.build ∅ .created).commit serving ∅ .created).commit
    scaler ∅ .created

theorem sound_ungrouped : ungrouped.Sound :=
  (((sound_empty 100).commit rfl _ _).commit rfl _ _).commit rfl _ _

theorem found_serving : ungrouped.getByKey .releases "prod/web-1" = some serving := by
  rw [ungrouped, (agrees_commit (by decide) _ _ _ _).getByKey]
  exact getByKey_commit_self ..

/-- The first pass makes the group, whose size is for the autoscaler to decide from then on; the
second pass leaves it alone. -/
theorem group_made_and_handed_over : autoscaledGroup? ungrouped serving = none ∧
    ∃ a s', run "prod/web-1" 200 ungrouped = .ok a s' ∧
      (s'.getByKey .replicaGroups "prod/web-1").isSome = true ∧
      (autoscaledGroup? s' serving).isSome = true ∧ run "prod/web-1" 200 s' = .ok a s' := by
  have plain : "prod/web-1".toList.head? ≠ some '/' := by decide
  have twice := release_pass_fails_cleanly_and_repeats sound_ungrouped plain 200
  have before : autoscaledGroup? ungrouped serving = none := by decide +kernel
  have after :
      (autoscaledGroup? ((run "prod/web-1" 200).left ungrouped) serving).isSome = true := by
    decide +kernel
  unfold Pass.left at after
  refine ⟨before, ?_⟩
  cases ended : run "prod/web-1" 200 ungrouped with
  | error e s' =>
      obtain ⟨rfl, -⟩ := twice.2.1 e s' ended
      rw [ended, before] at after
      cases after
  | ok a s' =>
      rw [ended] at after
      obtain ⟨grouped, again⟩ := twice.2.2 a s' ended
      exact ⟨a, s', rfl, grouped.2 ⟨serving, found_serving, by decide⟩, after, again⟩

end Sample

end ReleasePass
end Cutover
