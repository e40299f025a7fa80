/-
# Cutover.Proofs.Deployment.Turn -- what a pass over a descriptor leaves in the store

A pass carries one list of releases through a row of separate writes: the time of the
movement, the releases, the deletion of old ones, the autoscaler, the split, the status.  No
write after the releases touches them but the deletions, and none reads them back.  So the
store holds in the end what the list says (`Carried`): the releases as the ramp left them less
the expired ones, the split that is made from the list, and the ramp's status.

A pass fails without its build, or when the key of a new release is taken (`leads_run`).
-/
import Cutover.Proofs.Deployment.Lineup
import Cutover.Proofs.Deployment.Steps

namespace Cutover.Deployment

set_option autoImplicit false

open Pass Store

variable {s s' : Store} {d : Descriptor} {rs xs : List Release} {now : Nat}

/-! ## The pass in parts -/

/-- A way to store releases with what they were. -/
abbrev Filing := List (Release × Release) → Pass StoreError (List Release)

/-- What a pass does once the releases are stored. -/
def follow (result : Ramp.Result) (observed : DescriptorStatus) (now : Nat) (rs : List Release) :
    Pass DeployError Unit := do
  discard <| (Release.collectGarbage rs now).within .store
  let d ← (Binding.reconcile result.descriptor rs).within .autoscaler
  discard <| (Routing.publish d rs).within .store
  (report d observed).within .store

/-- `carryOut` with a way to store the releases. -/
def carryOutBy (file : Filing) (result : Ramp.Result) (observed : DescriptorStatus)
    (before : List Release) (now : Nat) : Pass DeployError Unit := do
  (stamp result.descriptor observed).within .store
  let releases ← (file (result.releases.zip before)).within .store
  follow result observed now releases

/-- `deploy` with a way to store the releases. -/
def deployBy (file : Filing) (d : Descriptor) (now : Nat) : Pass DeployError Action := do
  let config ← configure d
  match (← getThe Store).get .builds "" d.spec.build with
  | none => throw (.missingBuild d.spec.build)
  | some build =>
      let before := candidates (← getThe Store) d build config
      match Ramp.pass d before now with
      | .error e => throw e
      | .ok result =>
          carryOutBy file result d.status before now
          return match result.outcome.requeueAfter with
            | some seconds => .requeue (.ofSeconds seconds)
            | none => .awaitChange

theorem deploy_eq (d : Descriptor) (now : Nat) : deploy d now = deployBy persistAll d now := rfl

/-! ## The whole pass -/

/-- What the ramp hands to the writes: each release reworked, and the descriptor with another
status. -/
structure Ramped (d : Descriptor) (rs : List Release) (result : Ramp.Result) : Prop where
  length : result.releases.length = rs.length
  rework : ∀ x ∈ result.releases.zip rs, Rework x.1 x.2
  descriptor : ∃ status, result.descriptor = { d with status }

theorem exists_ramped (ne : rs ≠ []) (d : Descriptor) (now : Nat) :
    ∃ result, Ramp.pass d rs now = .ok result ∧ Ramped d rs result := by
  by_cases moves : Ramp.Moves d rs now
  · obtain ⟨p, planned, passed⟩ := moves.exists_plan
    have releases : (p.carryOut d rs now).releases = _ :=
      Ramp.releases_carryOut (Ramp.planOf?_sound planned)
    refine ⟨_, passed, ?_, ?_, _, rfl⟩
    · rw [releases, Ramp.length_spread]
    · rw [releases]
      exact rework_of_mem_zip
  · obtain ⟨outcome, passed⟩ := Ramp.pass_of_not_moves ne moves
    refine ⟨_, passed, rfl, fun x member => ?_, d.status, rfl⟩
    obtain ⟨i, at_⟩ := List.getElem?_of_mem member
    obtain ⟨new, old⟩ := List.getElem?_zip_eq_some.1 at_
    rw [Option.some.inj (new.symm.trans old)]
    exact Rework.refl _

theorem ramped_of_pass {result : Ramp.Result} (passed : Ramp.pass d rs now = .ok result) :
    Ramped d rs result := by
  have ne : rs ≠ [] := by
    rintro rfl
    cases passed
  obtain ⟨result', passed', ramped⟩ := exists_ramped ne d now
  rwa [Except.ok.inj (passed.symm.trans passed')]

section Ramped

variable {result : Ramp.Result} (ramped : Ramped d rs result)

include ramped

theorem Ramped.map_snd_zip : (result.releases.zip rs).map (·.2) = rs :=
  List.map_snd_zip (Nat.le_of_eq ramped.length.symm)

theorem Ramped.map_fst_zip : (result.releases.zip rs).map (·.1) = result.releases :=
  List.map_fst_zip (Nat.le_of_eq ramped.length)

theorem Ramped.ready (listed : Listed s d rs) :
    ∀ p ∈ result.releases.zip rs, Ready s d.spec.app d.spec.target p := by
  intro p member
  have old : p.2 ∈ rs := (List.of_mem_zip member).2
  exact ⟨ramped.rework p member, listed.labelled _ old, listed.known _ old,
    fun new => (listed.fresh _ old new).traffic⟩

theorem Ramped.apart (listed : Listed s d rs) : (result.releases.zip rs).Pairwise Apart := by
  have apart := listed.apart
  rw [← ramped.map_snd_zip, List.pairwise_map] at apart
  exact apart

theorem Ramped.covers (listed : Listed s d rs) :
    ∀ o ∈ stored s d, o.key ∈ (result.releases.zip rs).map (·.2.key) := by
  intro o member
  have inside := listed.all o member
  rw [← ramped.map_snd_zip] at inside
  obtain ⟨p, there, rfl⟩ := List.mem_map.1 inside
  exact List.mem_map.2 ⟨p, there, rfl⟩

theorem Ramped.held {xs : List Release}
    (filed : List.Forall₂ (fun p x => Held p.1 x) (result.releases.zip rs) xs) :
    List.Forall₂ Held result.releases xs := by
  rw [← ramped.map_fst_zip]
  exact List.forall₂_map_left_iff.2 filed

end Ramped

/-- What the writes after the releases leave in the store. -/
structure Followed (d : Descriptor) (result : Ramp.Result) (now : Nat) (xs : List Release)
    (s s' : Store) : Prop where
  kept : (stored s' d).Perm (without ((Release.expired xs now).map (·.key)) (stored s d))
  there : ∀ key, s'.getByKey .releases key = if key ∈ (Release.expired xs now).map (·.key) then none
    else s.getByKey .releases key
  published : ∃ split, s'.get .trafficSplits d.spec.target d.spec.app = some split ∧
    split.spec = (Routing.splitFor d xs).spec
  described : ∃ scaledAt, Standing d { result.descriptor.status with lastScaledAt := scaledAt } s'
  inputs : ∀ j, j = .builds ∨ j = .appConfigs → Agrees j s s'
  sound : s'.Sound

theorem ends_follow {result : Ramp.Result} {status : DescriptorStatus} (sound : s.Sound)
    (descriptor : result.descriptor = { d with status })
    (standing : Standing d { d.status with deployUpdatedAt := status.deployUpdatedAt } s)
    (now : Nat) (xs : List Release) :
    Ends (follow result d.status now xs) s fun _ s' => Followed d result now xs s s' := by
  unfold follow
  rw [descriptor]
  refine (ends_collectGarbage sound xs now
    (Selector.ofTarget d.spec.app d.spec.target)).within.discard.bind ?_
  rintro - s₁ ⟨-, kept, there, others₁, sound₁⟩
  refine (ends_reconcile sound₁ _ xs).within.bind ?_
  rintro d₂ s₂ ⟨⟨scaledAt, rfl⟩, others₂, sound₂⟩
  refine (ends_publish sound₂ _ xs).within.discard.bind ?_
  rintro - s₃ ⟨-, ⟨split, found, spec⟩, others₃, sound₃⟩
  have standing₃ := ((standing.of_agrees (others₁ _ (by decide))).of_agrees
    (others₂ _ (by decide))).of_agrees (others₃ _ (by decide))
  refine (ends_report { status with lastScaledAt := scaledAt } sound₃ standing₃).within.mono ?_
  rintro - s₄ ⟨standing₄, others₄, sound₄⟩
  have releases : Agrees .releases s₁ s₄ := ((others₂ _ (by decide)).trans
    (others₃ _ (by decide))).trans (others₄ _ (by decide))
  refine ⟨?_, fun key => ?_, ⟨split, ?_, spec⟩, ⟨scaledAt, ?_⟩, ?_, sound₄⟩
  · unfold stored
    rw [releases.scan]
    exact kept
  · rw [releases.getByKey]
    exact there key
  · rw [(others₄ _ (by decide)).get]
    exact found
  · rw [descriptor]
    exact standing₄
  · rintro j (rfl | rfl)
    all_goals exact (((others₁ _ (by decide)).trans (others₂ _ (by decide))).trans
      (others₃ _ (by decide))).trans (others₄ _ (by decide))

theorem lineup_of_agrees (agrees : ∀ j, j ≠ .configMaps → Agrees j s s') :
    lineup s' d = lineup s d := by
  unfold lineup candidates
  rw [(agrees .builds (by decide)).get, Feedback.configOf_of_agrees (agrees .appConfigs (by decide))
    rfl, (agrees .releases (by decide)).matching]

/-- The time of the movement is stored, then the releases in their way, then what follows. -/
theorem leads_carryOutBy {file : Filing} {result : Ramp.Result}
    {fails : DeployError → Store → Prop} (filed : List Release → Store → Prop) (sound : s.Sound)
    (standing : Standing d d.status s) (ramped : Ramped d rs result)
    (files : ∀ s₁, (∀ j, j ≠ .descriptors → Agrees j s s₁) → s₁.Sound →
      (s.Indexed → s₁.Indexed) →
      Standing d { d.status with
        deployUpdatedAt := result.descriptor.status.deployUpdatedAt } s₁ →
      Leads (file (result.releases.zip rs)) s₁
        (fun xs s₂ => filed xs s₂ ∧ Agrees .descriptors s₁ s₂ ∧ s₂.Sound)
        fun e s₂ => fails (.store e) s₂) :
    Leads (carryOutBy file result d.status rs now) s
      (fun _ s' => ∃ xs s₂, filed xs s₂ ∧ Followed d result now xs s₂ s') fails := by
  obtain ⟨status, descriptor⟩ := ramped.descriptor
  unfold carryOutBy
  have stamped : Ends ((stamp result.descriptor d.status).within DeployError.store) s fun _ s₁ =>
      Standing d { d.status with deployUpdatedAt := status.deployUpdatedAt } s₁ ∧
        (∀ j, j ≠ .descriptors → Agrees j s s₁) ∧ s₁.Sound ∧ (s.Indexed → s₁.Indexed) := by
    rw [descriptor]
    exact (ends_stamp sound standing status).within
  refine (Ends.leads stamped).bind ?_
  rintro - s₁ ⟨standing₁, others₁, sound₁, indexed₁⟩
  refine (files s₁ others₁ sound₁ indexed₁ (descriptor ▸ standing₁)).within.bind ?_
  rintro xs s₂ ⟨filed₂, agrees, sound₂⟩
  have followed := ends_follow sound₂ descriptor (standing₁.of_agrees agrees) now xs
  exact Ends.leads (followed.mono fun _ s' follows => ⟨xs, s₂, filed₂, follows⟩)

/-- A pass over a descriptor is its ramp over the lineup, carried out, whatever the index has. -/
theorem leads_deployBy_built {file : Filing} {post : Action → Store → Prop}
    {fails : DeployError → Store → Prop} (sound : s.Sound)
    (described : s.getByKey .descriptors d.key = some d)
    (missing : s.get .builds "" d.spec.build = none → ∀ e s', fails e s')
    (carries : ∀ build result s₁, s.get .builds "" d.spec.build = some build →
      Ramp.pass d (lineup s d) now = .ok result → Ramped d (lineup s d) result → s₁.Sound →
      (s.Indexed → s₁.Indexed) → (∀ j, j ≠ .configMaps → Agrees j s s₁) →
      Standing d d.status s₁ →
      Leads (carryOutBy file result d.status (lineup s d) now) s₁ (fun _ s' => ∀ a, post a s')
        fails) : Leads (deployBy file d now) s post fails := by
  unfold deployBy
  refine (Ends.leads (ends_configure sound d)).bind ?_
  rintro config s₁ ⟨rfl, others₁, sound₁, indexed₁⟩
  refine leads_read ?_
  rw [(others₁ .builds (by decide)).get]
  cases built : s.get .builds "" d.spec.build with
  | none => exact leads_throw (missing built _ _)
  | some build =>
      obtain ⟨result, passed, ramped⟩ := exists_ramped (lineup_ne_nil built) d now
      have lineup_eq : candidates s₁ d build (Feedback.configOf s d) = lineup s d := by
        rw [← lineup_of_agrees others₁]
        unfold lineup
        rw [(others₁ .builds (by decide)).get, built, Feedback.configOf_of_agrees
          (others₁ .appConfigs (by decide)) rfl]
      have standing : Standing d d.status s₁ :=
        ⟨d.info.statusVersion, by rw [(others₁ .descriptors (by decide)).getByKey]; exact described⟩
      refine leads_read ?_
      simp only [lineup_eq, passed]
      refine (carries build result s₁ built passed ramped sound₁ indexed₁ others₁ standing).bind ?_
      exact fun _ s' holds => Ends.leads (ends_pure (holds _))

/-- With an index that has every release, the ramp is over those that are stored. -/
theorem leads_deployBy {file : Filing} {post : Action → Store → Prop}
    {fails : DeployError → Store → Prop} (sound : s.Sound) (indexed : s.Indexed)
    (described : s.getByKey .descriptors d.key = some d)
    (missing : s.get .builds "" d.spec.build = none → ∀ e s', fails e s')
    (carries : ∀ result s₁, Ramp.pass d (lineup s d) now = .ok result →
      Ramped d (lineup s d) result → Listed s d (lineup s d) → s₁.Sound → s₁.Indexed →
      (∀ j, j ≠ .configMaps → Agrees j s s₁) → Standing d d.status s₁ →
      Leads (carryOutBy file result d.status (lineup s d) now) s₁ (fun _ s' => ∀ a, post a s')
        fails) : Leads (deployBy file d now) s post fails := by
  refine leads_deployBy_built sound described missing ?_
  intro build result s₁ built passed ramped sound₁ indexed₁ others₁ standing
  obtain ⟨listed, -, -⟩ := listed_lineup sound indexed built
  exact carries result s₁ passed ramped listed sound₁ (indexed₁ indexed) others₁ standing

/-! ## What a successful pass leaves -/

/-- What a successful pass leaves in the store. -/
structure Carried (d : Descriptor) (result : Ramp.Result) (now : Nat) (xs : List Release)
    (s' : Store) : Prop where
  held : List.Forall₂ Held result.releases xs
  distinct : (xs.map (·.key)).Nodup
  kept : (stored s' d).Perm (without ((Release.expired xs now).map (·.key)) xs)
  published : ∃ split, s'.get .trafficSplits d.spec.target d.spec.app = some split ∧
    split.spec = (Routing.splitFor d xs).spec
  described : ∃ scaledAt, Standing d { result.descriptor.status with lastScaledAt := scaledAt } s'
  sound : s'.Sound

/-- When all listed releases have been stored, a scan finds them and no others. -/
theorem Filed.stored_perm {pairs : List (Release × Release)}
    (filed : Filed d.spec.app d.spec.target pairs xs s s') (covers : ∀ o ∈ stored s d,
      o.key ∈ pairs.map (·.2.key)) : (stored s' d).Perm xs := by
  have none_ : without (pairs.map (·.2.key)) (stored s d) = [] := by
    refine List.filter_eq_nil_iff.2 fun o member => ?_
    simpa using covers o member
  have found := filed.found
  unfold stored at none_ ⊢
  rwa [none_, List.append_nil] at found

/-- **A pass over a descriptor** carries its lineup through the ramp into the store, if the
build is there and the key of a new release is free. -/
theorem leads_run (sound : s.Sound) (indexed : s.Indexed) {key : String}
    (described : s.getByKey .descriptors key = some d) (now : Nat) :
    Leads (run key now) s
      (fun _ s' => ∃ result xs, Ramp.pass d (lineup s d) now = .ok result ∧
        Listed s d (lineup s d) ∧ Carried d result now xs s')
      fun _ _ => s.get .builds "" d.spec.build = none ∨
        ∃ o ∈ lineup s d, o.info.isPersisted = false := by
  obtain rfl := sound.keyed _ _ d described
  unfold run
  refine leads_read ?_
  simp only [described]
  rw [deploy_eq]
  refine leads_deployBy sound indexed described (fun missing _ _ => .inl missing) ?_
  intro result s₁ passed ramped listed sound₁ _ others₁ standing
  have listed₁ := listed.of_agrees (others₁ .releases (by decide))
  refine (leads_carryOutBy (fun xs s₂ => List.Forall₂ Held result.releases xs ∧
    (stored s₂ d).Perm xs ∧ s₂.Sound) sound₁ standing ramped ?_).mono ?_ fun _ _ stopped => stopped
  · intro s₂ others sound₂ _ _
    have listed₂ := listed₁.of_agrees (others .releases (by decide))
    refine (leads_persistAll sound₂ (ramped.ready listed₂) (ramped.apart listed₂)).mono ?_ ?_
    · intro xs s₃ filed
      exact ⟨⟨ramped.held filed.held, filed.stored_perm (ramped.covers listed₂), filed.sound⟩,
        filed.others _ (by decide), filed.sound⟩
    · rintro e s₃ ⟨-, p, member, new⟩
      exact .inr ⟨p.2, (List.of_mem_zip member).2, new⟩
  · rintro - s' ⟨xs, s₂, ⟨held, perm, sound₂⟩, followed⟩ action
    refine ⟨result, xs, passed, listed, held, ?_, ?_, followed.published, followed.described,
      followed.sound⟩
    · exact (perm.map _).nodup_iff.1 (nodup_scan sound₂)
    · exact followed.kept.trans (perm.filter _)

/-- With its build and without a new release to store, a pass succeeds. -/
theorem ends_run (sound : s.Sound) (indexed : s.Indexed) {key : String}
    (described : s.getByKey .descriptors key = some d) {build : Build}
    (built : s.get .builds "" d.spec.build = some build)
    (current : (s.matching .releases (Selector.ofTarget d.spec.app d.spec.target)).any
      (isCurrent d.spec.fingerprint (Feedback.configOf s d)) = true) (now : Nat) :
    Ends (run key now) s fun _ s' => ∃ result xs,
      Ramp.pass d (lineup s d) now = .ok result ∧ Carried d result now xs s' := by
  obtain ⟨-, -, persisted⟩ := listed_lineup sound indexed built
  refine ((leads_run sound indexed described now).ends ?_).mono ?_
  · rintro e s' (missing | ⟨o, member, new⟩)
    · rw [built] at missing
      cases missing
    · rw [persisted current o member] at new
      cases new
  · rintro action s' ⟨result, xs, passed, -, carried⟩
    exact ⟨result, xs, passed, carried⟩

end Cutover.Deployment
