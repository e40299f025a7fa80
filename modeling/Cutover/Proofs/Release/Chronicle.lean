/-
# Cutover.Proofs.Release.Chronicle -- what happens to a release in its life

Whoever is on duty for the rollouts writes releases: a pass over a descriptor their specs, a pass
over a release its status.  The first keeps of every release what it was cut from and its status
(`Deployment.leaves_run`), the second all but the status (`ReleasePass.leaves_run`), and what binds
autoscalers or follows them writes no release, like all who write objects of other kinds.

So each duty keeps the origin of a release that is there before and after it
(`Duty.sameOrigin`), and by induction so does a run of duties, as long as the release is not
deleted in between (`sameOrigin_worked`).  One that is deleted may come again under its name.
-/
import Cutover.Proofs.Deployment.Interruption
import Cutover.Proofs.Deployment.Origin
import Cutover.Proofs.Release.Repetition

namespace Cutover

set_option autoImplicit false

open Pass Store

variable {s s' : Store}

/-! ## A pass over a release -/

namespace ReleasePass

/-- The same releases are stored, each as it was but for its status. -/
def Reported (s s' : Store) : Prop :=
  ∀ key, Option.Rel Half.spec.Same (s.getByKey .releases key) (s'.getByKey .releases key)

theorem reported_of_agrees (agrees : Agrees .releases s s') : Reported s s' := by
  intro key
  rw [agrees.getByKey]
  cases s.getByKey .releases key with
  | none => exact .none
  | some o => exact .some (Half.Same.refl _ o)

/-- Statuses of releases may be written. -/
theorem leaves_modifyStatus (sound : s'.Sound) (agrees : Agrees .releases s s') (ns name : String)
    (f : Release → ReleaseStatus) :
    (modifyStatus .releases ns name f).Leaves s' (Reported s) := by
  refine (ends_modifyStatus_any sound ns name f).leaves ?_
  rintro - s'' (rfl | ⟨o, version, found, replaces⟩)
  · exact reported_of_agrees agrees
  · intro key
    rw [← agrees.getByKey]
    by_cases same : key = o.key
    · subst same
      rw [found, replaces.here]
      exact .some rfl
    · rw [replaces.there key same]
      exact reported_of_agrees (Agrees.refl _ s') key

/-- **A pass over a release rewrites no spec and no labels**, whether it succeeds or fails. -/
theorem leaves_run (sound : s.Sound) (key : String) (now : Nat) :
    (run key now).Leaves s (Reported s) := by
  unfold run
  simp only
  refine leads_read ?_
  cases found : s.get .releases (splitKey key).1 (splitKey key).2 with
  | none =>
      have deleted : (deleteGroup (splitKey key).1 (splitKey key).2).Leaves s (Reported s) := by
        refine (ends_deleteGroup s _ _).leaves ?_
        rintro - _ rfl
        exact reported_of_agrees (agrees_delete (by decide) ..)
      exact deleted.chain fun _ _ reported => leaves_pure reported _
  | some r =>
      have settled : Leads (settleGroup r (splitKey key).1 (splitKey key).2) s
          (fun _ s' => Agrees .releases s s' ∧ s'.Sound) fun _ s' => Reported s s' := by
        refine (leads_settleGroup sound (sound.keyed _ _ r found).symm).mono ?_ ?_
        · rintro _ s' ⟨-, -, others, sound'⟩
          exact ⟨others _ (by decide), sound'⟩
        · rintro _ _ ⟨-, -, rfl⟩
          exact reported_of_agrees (Agrees.refl _ _)
      refine settled.bind ?_
      rintro group s₁ ⟨agrees, sound₁⟩
      refine leads_read ?_
      split
      · have written := leaves_modifyStatus sound₁ agrees (splitKey key).1 (splitKey key).2
        exact (((written _).within _).map _).chain fun _ _ reported => leaves_pure reported _
      · exact leaves_pure (reported_of_agrees agrees) _

end ReleasePass

/-! ## Objects of other kinds -/

/-- The kind of objects that a request writes. -/
def Request.kind? : Request → Option Kind
  | @Request.create k _ => some k
  | @Request.updateSpec k _ => some k
  | @Request.updateStatus k _ => some k
  | .delete k _ _ => some k
  | @Request.apply k _ => some k
  | .modifySpec k _ _ _ => some k
  | .modifyStatus k _ _ _ => some k
  | .wait _ => none

/-- A request leaves the objects of other kinds than its own. -/
theorem Store.getByKey_serve {k : Kind} (sound : s.Sound) {r : Request}
    (foreign : r.kind? ≠ some k) (key : String) :
    (s.serve r).getByKey k key = s.getByKey k key := by
  have away {j : Kind} {other : String} {before after : Option (Object j)} {change : Change}
      (ne : some j ≠ some k) {s' : Store} (commits : s.Commits j other before change after s') :
      s'.getByKey k key = s.getByKey k key :=
    commits.others k key fun same => ne (congrArg some same.1.symm)
  have refused {ε : Type} (_ : ε) (s' : Store) (same : s' = s) :
      s'.getByKey k key = s.getByKey k key := by rw [same]
  have told := all_or_nothing sound r
  cases r with
  | create o => exact Leaves.left (Leads.mono told (fun _ _ => away foreign) refused)
  | updateSpec o =>
      refine Leaves.left (Leads.mono told ?_ refused)
      rintro written s' ⟨before, commits⟩
      exact away foreign commits
  | updateStatus o =>
      refine Leaves.left (Leads.mono told ?_ refused)
      rintro written s' ⟨before, commits⟩
      exact away foreign commits
  | delete j ns name =>
      have ne : k ≠ j := fun same => foreign (congrArg some same.symm)
      exact (agrees_delete ne s ns name).getByKey key
  | apply desired =>
      refine Leaves.left (Leads.mono told ?_ refused)
      rintro answer s' (⟨-, -, same⟩ | ⟨-, before, change, commits⟩)
      · rw [same]
      · exact away foreign commits
  | modifySpec j ns name f =>
      refine Leaves.left (Leads.mono told ?_ refused)
      rintro answer s' (⟨-, same⟩ | ⟨read, before, written, -, -, commits⟩)
      · rw [same]
      · exact away foreign commits
  | modifyStatus j ns name f =>
      refine Leaves.left (Leads.mono told ?_ refused)
      rintro answer s' (⟨-, same⟩ | ⟨before, written, -, commits⟩)
      · rw [same]
      · exact away foreign commits
  | wait clock => rfl

/-! ## Autoscalers -/

namespace Scaler

/-- A decision is written to a replica group and to an autoscaler. -/
theorem leaves_evaluateOne (sound : s.Sound) (scaler : Scaler) (a : Autoscaler) :
    (evaluateOne scaler a).Leaves s fun s' => Agrees .releases s s' ∧ s'.Sound := by
  have unchanged : Agrees .releases s s ∧ s.Sound := ⟨Agrees.refl _ s, sound⟩
  unfold evaluateOne
  refine leads_read ?_
  simp only
  cases found : s.get .replicaGroups a.info.ns a.spec.release with
  | none => exact leaves_pure unchanged _
  | some group =>
      simp only
      generalize scaler.evaluate _ _ _ _ _ = answer
      have noted {t : Store} (agrees : Agrees .releases s t) (sound : t.Sound) : Leaves (do
          discard <| Store.modifyStatus .autoscalers a.info.ns a.name fun a =>
            noted a.status group.spec.replicas answer.1 s.clock
          return (some (a.key, answer.1), answer.2)) t
            fun s' => Agrees .releases s s' ∧ s'.Sound := by
        have written := (Deployment.ends_modify_foreign (k := .autoscalers) sound (by decide)
          a.info.ns a.name fun a => Scaler.noted a.status group.spec.replicas answer.1 s.clock).leaves
            fun _ _ holds => And.intro (agrees.trans holds.1) holds.2
        exact (written.map _).chain fun _ _ holds => leaves_pure holds _
      cases decision : answer.1 with
      | none =>
          rw [decision] at noted
          exact noted (Agrees.refl _ s) sound
      | some n =>
          rw [decision] at noted
          have resized := (ends_modifySpec sound found (f := fun g : ReplicaGroup =>
            { g with spec.replicas := n }) rfl).discard
          refine resized.leads.bind ?_
          rintro _ s₁ ⟨-, version, replaces⟩
          exact noted (replaces.others _ (by decide)) replaces.sound

theorem leaves_evaluateEach (sound : s.Sound) (scaler : Scaler) (as : List Autoscaler) :
    (evaluateEach scaler as).Leaves s fun s' => Agrees .releases s s' ∧ s'.Sound := by
  induction as generalizing s scaler with
  | nil => exact leaves_pure ⟨Agrees.refl _ s, sound⟩ _
  | cons a rest ih =>
      refine (leaves_evaluateOne sound scaler a).chain ?_
      rintro first s₁ ⟨agrees, sound₁⟩
      have others := (ih sound₁ first.2).mono fun _ holds =>
        And.intro (agrees.trans holds.1) holds.2
      exact others.chain fun _ _ holds => leaves_pure holds _

/-- A round of the scaler writes no release. -/
theorem leaves_evaluateAll (sound : s.Sound) (scaler : Scaler) :
    scaler.evaluateAll.Leaves s fun s' => Agrees .releases s s' := by
  unfold evaluateAll
  exact leads_read ((leaves_evaluateEach sound scaler _).mono fun _ holds => holds.1)

end Scaler

/-! ## Everybody on duty -/

/-- What is done for rollouts: a pass over a descriptor or over a release at a time, an autoscaler
bound for a descriptor with some releases, a round of the scaler; and what others ask of the store,
who write objects of other kinds or let time pass. -/
inductive Duty where
  | deployment (key : String) (now : Nat)
  | release (key : String) (now : Nat)
  | coordination (d : Descriptor) (rs : List Release)
  | scaling (scaler : Scaler)
  | call (r : Request) (foreign : r.kind? ≠ some .releases)

/-- The store after a duty, whether it succeeds or fails. -/
def Duty.leave (s : Store) : Duty → Store
  | deployment key now => (Deployment.run key now).left s
  | release key now => (ReleasePass.run key now).left s
  | coordination d rs => (Binding.reconcile d rs).left s
  | scaling scaler => scaler.evaluateAll.left s
  | call r _ => s.serve r

/-- The store after some duties, one after the other. -/
def Store.worked (s : Store) (duties : List Duty) : Store := duties.foldl Duty.leave s

theorem worked_deployment (s : Store) (key : String) (now : Nat) :
    s.worked [.deployment key now] = (Deployment.run key now).left s := rfl

variable {duties : List Duty} {key : String} {o o' : Release}

theorem Duty.sound (sound : s.Sound) (duty : Duty) : (duty.leave s).Sound := by
  cases duty with
  | deployment key now => exact (Deployment.proceeds_run sound key now).left.sound sound
  | release key now => exact (ReleasePass.proceeds_run sound key now).left.sound sound
  | coordination d rs => exact (Deployment.proceeds_reconcile sound d rs).left.sound sound
  | scaling scaler => exact (scaler.proceeds_evaluateAll sound).left.sound sound
  | call r _ => exact sound.next (next_serve s r)

/-- **One duty.**  A release that is there before and after it has the same origin. -/
theorem Duty.sameOrigin (sound : s.Sound) (duty : Duty)
    (was : s.getByKey .releases key = some o)
    (is_ : (duty.leave s).getByKey .releases key = some o') : Release.SameOrigin o o' := by
  have untouched (same : (duty.leave s).getByKey .releases key = s.getByKey .releases key) :
      Release.SameOrigin o o' := by
    rw [same, was] at is_
    rw [Option.some.inj is_]
    exact Release.SameOrigin.refl o'
  cases duty with
  | deployment pass now => exact ((Deployment.leaves_run sound pass now).left.revised was is_).origin
  | release pass now =>
      have reported := (ReleasePass.leaves_run sound pass now).left key
      have is_ : ((ReleasePass.run pass now).left s).getByKey .releases key = some o' := is_
      rw [was, is_] at reported
      cases reported with
      | some same => exact Release.SameOrigin.of_same_spec same
  | coordination d rs =>
      obtain ⟨_, -, others, -⟩ := exists_left_of_ends (Deployment.ends_reconcile sound d rs)
      exact untouched ((others .releases (by decide)).getByKey key)
  | scaling scaler => exact untouched ((scaler.leaves_evaluateAll sound).left.getByKey key)
  | call r foreign => exact untouched (Store.getByKey_serve sound foreign key)

theorem sound_worked (sound : s.Sound) (duties : List Duty) : (s.worked duties).Sound := by
  induction duties generalizing s with
  | nil => exact sound
  | cons duty rest ih => exact ih (duty.sound sound)

/-- **A run of duties.**  A release that is there before, after and between them has the same
origin. -/
theorem sameOrigin_worked (sound : s.Sound) (was : s.getByKey .releases key = some o)
    (occupied : ∀ front, front <+: duties → ((s.worked front).getByKey .releases key).isSome = true)
    (is_ : (s.worked duties).getByKey .releases key = some o') : Release.SameOrigin o o' := by
  induction duties generalizing s o with
  | nil =>
      obtain rfl : o = o' := Option.some.inj (was.symm.trans is_)
      exact Release.SameOrigin.refl o
  | cons duty rest ih =>
      obtain ⟨x, there⟩ := Option.isSome_iff_exists.1 (occupied [duty] ⟨rest, rfl⟩)
      have later : ∀ front, front <+: rest →
          (((duty.leave s).worked front).getByKey .releases key).isSome = true := by
        intro front ahead
        exact occupied (duty :: front) (List.cons_prefix_cons.2 ⟨rfl, ahead⟩)
      exact (duty.sameOrigin sound was there).trans (ih (duty.sound sound) there later is_)

/-- What a pass over a release may not change. -/
def Release.specified (r : Release) : ReleaseSpec × Dict String := (r.spec, r.info.labels)

theorem ReleasePass.Reported.specified_eq (reported : ReleasePass.Reported s s') (key : String) :
    (s'.getByKey .releases key).map Release.specified =
      (s.getByKey .releases key).map Release.specified := by
  have alike := reported key
  generalize s.getByKey .releases key = was at alike ⊢
  generalize s'.getByKey .releases key = is_ at alike ⊢
  cases alike with
  | none => rfl
  | some same =>
      have status : Half.status.graft _ _ = _ := same
      rw [← status]
      rfl

/-- **The history of releases is not rewritten.**  Whatever was done before, and whatever is done
then, a release keeps its origin as long as it is there; a pass over a release leaves spec and labels
of all releases and deletes none; a pass over a descriptor leaves the status of all that it does not
delete, and has not written again what it has created. -/
theorem release_history_kept (sound : s.Sound) (earlier duties : List Duty) :
    (∀ key o o', (s.worked earlier).getByKey .releases key = some o →
      (∀ front, front <+: duties →
        ((s.worked (earlier ++ front)).getByKey .releases key).isSome = true) →
      (s.worked (earlier ++ duties)).getByKey .releases key = some o' → Release.SameOrigin o o') ∧
    (∀ pass now key,
      (((ReleasePass.run pass now).left (s.worked earlier)).getByKey .releases key).map
        Release.specified = ((s.worked earlier).getByKey .releases key).map Release.specified) ∧
    ∀ pass now key o',
      ((Deployment.run pass now).left (s.worked earlier)).getByKey .releases key = some o' →
        (∀ o, (s.worked earlier).getByKey .releases key = some o →
          o'.status = o.status ∧ o'.info.statusVersion = o.info.statusVersion) ∧
        ((s.worked earlier).getByKey .releases key = none → Release.Unwritten o') := by
  have sound' := sound_worked sound earlier
  have later (more : List Duty) : s.worked (earlier ++ more) = (s.worked earlier).worked more :=
    List.foldl_append
  refine ⟨?_, ?_, ?_⟩
  · intro key o o' was occupied is_
    simp only [later] at occupied is_
    exact sameOrigin_worked sound' was occupied is_
  · intro pass now key
    exact (ReleasePass.leaves_run sound' pass now).left.specified_eq key
  · intro pass now key o' is_
    have renewed := (Deployment.leaves_run sound' pass now).left
    refine ⟨fun o was => ?_, fun free => renewed.unwritten free is_⟩
    have same : Half.spec.graft o o' = o' := (renewed.revised was is_).status
    rw [← same]
    exact ⟨rfl, rfl⟩

namespace Deployment.Sample

open Cutover.Sample

/-- A pass takes a quarter of the traffic from a release, which keeps its origin and its status.  The
pass over the release that comes next finds and leaves it with the traffic it then has. -/
theorem lowered_release_keeps_origin : ∃ action s₁ r, run "web-prod" 100 store = .ok action s₁ ∧
    serving.spec.traffic = 75 ∧ s₁.getByKey .releases serving.key = some r ∧ r.spec.traffic = 50 ∧
    Release.SameOrigin serving r ∧ r.status = serving.status ∧
    (((ReleasePass.run serving.key 100).left s₁).getByKey .releases serving.key).map
      Release.specified = some (r.spec, r.info.labels) := by
  obtain ⟨action, s₁, done, result, xs, passed, carried⟩ :=
    ends_run sound_store indexed_store getByKey_described get_build any_current 100
  obtain ⟨r, stored, traffic⟩ : ∃ r, s₁.getByKey .releases serving.key = some r ∧
      r.spec.traffic = 50 := by
    cases passed.symm.trans passed_store
    obtain ⟨lowered, releases, traffic⟩ := releases_store
    have rework := (ramped_of_pass passed_store).rework (lowered, serving)
    have held := carried.held
    rw [releases, lineup_store] at rework
    rw [releases] at held
    obtain ⟨x, xs₁, -, held₁, rfl⟩ := List.forall₂_cons_left_iff.1 held
    obtain ⟨y, xs₂, held₂, none_, rfl⟩ := List.forall₂_cons_left_iff.1 held₁
    cases none_
    have key : y.key = serving.key := held₂.key.trans (rework (by simp)).key
    -- two releases are fewer than those that are always kept
    have inside : y ∈ stored s₁ described :=
      carried.kept.mem_iff.2 (by simp [without, Release.expired, Release.kept])
    refine ⟨y, ?_, ?_⟩
    · rw [← key]
      exact ((mem_scan carried.sound).1 inside).1
    · rw [held₂.spec]
      exact traffic
  have was : store.getByKey .releases serving.key = some serving :=
    ((mem_scan sound_store).1 (stored_perm.mem_iff.2 (by simp))).1
  have left := left_of_ok done
  have worked : store.worked [.deployment "web-prod" 100] = s₁ :=
    (worked_deployment store "web-prod" 100).trans left
  have occupied : ∀ front, front <+: [Duty.deployment "web-prod" 100] →
      ((store.worked front).getByKey .releases serving.key).isSome = true := by
    intro front ahead
    rcases List.prefix_cons_iff.1 ahead with rfl | ⟨more, rfl, nothing⟩
    · exact Option.isSome_iff_exists.2 ⟨serving, was⟩
    · rw [List.prefix_nil.1 nothing, worked]
      exact Option.isSome_iff_exists.2 ⟨r, stored⟩
  obtain ⟨origin, -, statuses⟩ := release_history_kept sound_store [] [.deployment "web-prod" 100]
  obtain ⟨-, reported, -⟩ := release_history_kept sound_store [.deployment "web-prod" 100] []
  have kept := origin serving.key serving r was occupied (worked ▸ stored)
  have status := (statuses "web-prod" 100 serving.key r (left ▸ stored)).1 serving was
  have read := reported serving.key 100 serving.key
  rw [worked, stored] at read
  exact ⟨action, s₁, r, done, rfl, stored, traffic, kept, status.1, read⟩

end Deployment.Sample

end Cutover
