/-
# Cutover.Proofs.Deployment.Interruption -- a pass that stops among its releases

When another client has replaced a release that a pass has read, the pass stops there
(`exists_interrupted`).  The time of the movement and the releases before that one have been
stored by then, and nothing after it.

The stored traffic is then 100 and what the first releases gained or lost
(`interrupted_pass_splits`).  A later pass that is held by the stored time moves nothing and
publishes that; only one that moves publishes 100 again.  A target that comes first in the list
and gained its step makes a split of more than 100 (`Sample.held_retry_publishes_125`).
-/
import Cutover.Proofs.Deployment.Amid
import Cutover.Proofs.Deployment.Retry
import Cutover.Proofs.Ramp.Pace

namespace Cutover.Deployment

set_option autoImplicit false

open Pass Store

variable {s : Store} {d : Descriptor} {now j k : Nat} {o o' : Release} {result : Ramp.Result}

/-! ## The pass that fails -/

/-- What a pass leaves that another client has stopped at a position of its list. -/
structure Interrupted (d : Descriptor) (result : Ramp.Result) (j k : Nat) (o o' : Release)
    (s s₁ : Store) : Prop where
  stamped : Standing d { d.status with
    deployUpdatedAt := result.descriptor.status.deployUpdatedAt } s₁
  others : ∀ i, i ≠ .releases → i ≠ .descriptors → i ≠ .configMaps → Agrees i s s₁
  stopped : ∃ s₀, Agrees .releases s s₀ ∧ s₀.Indexed ∧ StoppedAt d.spec.app d.spec.target
    (result.releases.zip (lineup s d)) j k o o' s₀ s₁

/-- **A pass that another client interrupts** fails with a conflict and leaves what it had stored
by then, unless the release was not to be written or the client is refused. -/
theorem leads_interrupted (sound : s.Sound) (indexed : s.Indexed)
    (described : s.getByKey .descriptors d.key = some d) (at_ : (lineup s d)[k]? = some o)
    (persisted : o.info.isPersisted = true) (le : j ≤ k) (edits : Edits o o') :
    Leads (deployBy (persistAmid j (intrude o')) d now) s
      (fun _ _ => o'.info.specVersion ≠ o.info.specVersion ∨
        ∃ result, Ramp.pass d (lineup s d) now = .ok result ∧ result.releases[k]? = some o)
      fun e s₁ => s.get .builds "" d.spec.build = none ∨
        ∃ result c, e = .store c ∧ Ramp.pass d (lineup s d) now = .ok result ∧
          Ramped d (lineup s d) result ∧
          Fails (result.releases.zip (lineup s d)) (Interrupted d result j k o o' s) c s₁ := by
  refine leads_deployBy sound indexed described (fun missing _ _ => .inl missing) ?_
  intro result s₁ passed ramped listed sound₁ indexed₁ others₁ standing
  have listed₁ := listed.of_agrees (others₁ .releases (by decide))
  have lt : k < result.releases.length := by
    rw [ramped.length]
    exact (List.getElem?_eq_some_iff.1 at_).1
  have zipped : (result.releases.zip (lineup s d))[k]? = some (result.releases[k], o) :=
    List.getElem?_zip_eq_some.2 ⟨List.getElem?_eq_getElem lt, at_⟩
  refine (leads_carryOutBy (fun _ _ => o'.info.specVersion ≠ o.info.specVersion ∨
    result.releases[k]? = some o) sound₁ standing ramped ?_).mono ?_ fun _ _ stopped => stopped
  · -- The stamp has been stored and nothing of the releases, so all of them are still ready.
    intro s₂ others₂ sound₂ indexed₂ stamped
    have listed₂ := listed₁.of_agrees (others₂ .releases (by decide))
    refine (leads_persistAmid_at sound₂ (ramped.ready listed₂) (ramped.apart listed₂) zipped
      persisted le edits).mono ?_ ?_
    · rintro xs s₃ ⟨same | refused, others₃, sound₃⟩
      · refine ⟨.inr ?_, others₃ _ (by decide), sound₃⟩
        rw [List.getElem?_eq_getElem lt, same]
      · exact ⟨.inl refused, others₃ _ (by decide), sound₃⟩
    · rintro c s₃ ⟨conflict, plain⟩
      refine .inr ⟨result, c, rfl, passed, ramped, fun stale => ?_, plain⟩
      obtain ⟨ps, ms, length, first, stopped⟩ := conflict stale
      constructor
      · exact stamped.of_agrees (stopped.others _ (by decide))
      · intro i notRelease notDescriptor notMap
        exact ((others₁ i notMap).trans (others₂ i notDescriptor)).trans
          (stopped.others i notRelease)
      · exact ⟨s₂, (others₁ _ (by decide)).trans (others₂ _ (by decide)), indexed₂ indexed₁, ps, ms,
          length, first, stopped⟩
  · rintro - s' ⟨xs, s₂, through, -⟩ -
    rcases through with refused | same
    · exact .inl refused
    · exact .inr ⟨result, passed, same⟩

/-- A pass with its build and without a new release does stop at a release that the client is
let to replace and that it would itself have written. -/
theorem exists_interrupted (sound : s.Sound) (indexed : s.Indexed)
    (described : s.getByKey .descriptors d.key = some d) {build : Build}
    (built : s.get .builds "" d.spec.build = some build)
    (persisted : ∀ r ∈ lineup s d, r.info.isPersisted = true) (at_ : (lineup s d)[k]? = some o)
    (le : j ≤ k) (edits : Edits o o') (seen : o'.info.specVersion = o.info.specVersion)
    (passed : Ramp.pass d (lineup s d) now = .ok result) (writes : result.releases[k]? ≠ some o) :
    ∃ e s₁, deployBy (persistAmid j (intrude o')) d now s = .error (.store e) s₁ ∧
      e.isConflict = true ∧ Ramped d (lineup s d) result ∧
      Interrupted d result j k o o' s s₁ := by
  have stored := persisted o (List.mem_of_getElem? at_)
  cases ended : deployBy (persistAmid j (intrude o')) d now s with
  | ok action s₁ =>
      rcases (leads_interrupted sound indexed described at_ stored le edits).of_ok ended with
        refused | ⟨result', passed', kept⟩
      · exact absurd seen refused
      · cases passed.symm.trans passed'
        exact absurd kept writes
  | error e s₁ =>
      rcases (leads_interrupted sound indexed described at_ stored le edits).of_error ended with
        missing | ⟨result', c, rfl, passed', ramped, stops, plain⟩
      · rw [built] at missing
        cases missing
      · cases passed.symm.trans passed'
        cases conflict : c.isConflict with
        | true => exact ⟨c, s₁, rfl, conflict, ramped, stops conflict⟩
        | false =>
            obtain ⟨p, member, new⟩ := plain conflict
            rw [persisted p.2 (List.of_mem_zip member).2] at new
            cases new

/-- What the first releases have gained or lost is missing from the others, or is there twice. -/
theorem Interrupted.exists_shares {s₁ : Store} (interrupted : Interrupted d result j k o o' s s₁)
    (ramped : Ramped d (lineup s d) result) (edits : Edits o o')
    (labelled : (Selector.ofTarget d.spec.app d.spec.target).accepts o.info.labels = true)
    (shares : Shares d 100 s) (idle : Idle result.releases) :
    ∃ total, total + Ramp.totalTraffic ((lineup s d).take k) =
      100 + Ramp.totalTraffic (result.releases.take k) ∧ Shares d total s₁ := by
  obtain ⟨-, -, s₀, agrees, -, ps, ms, -, first, stopped⟩ := interrupted
  have olds : (ps ++ ms).map (·.2) = (lineup s d).take k := by
    rw [first, List.map_take, ramped.map_snd_zip]
  have news : (ps ++ ms).map (·.1) = result.releases.take k := by
    rw [first, List.map_take, ramped.map_fst_zip]
  have before : s₀.scan .releases (Selector.ofTarget d.spec.app d.spec.target) = stored s d :=
    agrees.scan _
  have total := stopped.total edits labelled
  rw [olds, news, before, shares.total] at total
  refine ⟨_, total, stopped.idle edits labelled ?_ ?_, rfl⟩
  · rw [before]
    exact shares.idle
  · rw [news]
    intro r member
    exact idle r (List.mem_of_mem_take member)

/-! ## The passes after it -/

theorem exists_build_of_lineup {r : Release} (member : r ∈ lineup s d) :
    ∃ build, s.get .builds "" d.spec.build = some build := by
  unfold lineup at member
  split at member
  · rename_i build built
    exact ⟨build, built⟩
  · cases member

/-- **What comes of a pass that stops among its releases.**  The releases before the one that
another client has replaced are as the ramp left them and the others as they were, so that the
points which are stored are 100 and what the first ones gained.  The time of the movement is
stored too.  The passes that follow publish these points until one of them moves: for all of
them to be 100, the first releases have to have gained as much as they lost. -/
theorem interrupted_pass_splits {e : StoreError} {s₁ : Store} (sound : s.Sound)
    (indexed : s.Indexed) (described : s.getByKey .descriptors d.key = some d)
    (routed : Ramp.Routed (stored s d)) (at_ : (lineup s d)[k]? = some o)
    (persisted : o.info.isPersisted = true) (le : j ≤ k) (edits : Edits o o')
    (stops : deployBy (persistAmid j (intrude o')) d now s = .error (.store e) s₁)
    (conflict : e.isConflict = true) :
    ∃ result total, Ramp.pass d (lineup s d) now = .ok result ∧
      total + Ramp.totalTraffic ((lineup s d).take k) =
        100 + Ramp.totalTraffic (result.releases.take k) ∧
      Standing d { d.status with deployUpdatedAt := result.descriptor.status.deployUpdatedAt } s₁ ∧
      Shares d total s₁ ∧
      ∀ rs, Retries d s₁ rs → ∀ (i : Nat) (r : Retry), rs[i]? = some r →
        Publishes d (pointsAfter total (rs.take (i + 1))) r.finish := by
  obtain ⟨build, built⟩ := exists_build_of_lineup (List.mem_of_getElem? at_)
  obtain ⟨listed, -, -⟩ := listed_lineup sound indexed built
  have shares := shares_of_routed routed
  rcases (leads_interrupted sound indexed described at_ persisted le edits).of_error stops with
    missing | ⟨result, c, same, passed, ramped, halts, -⟩
  · rw [built] at missing
    cases missing
  cases same
  have interrupted := halts conflict
  obtain ⟨idle, -⟩ := points_of_pass sound listed shares passed
  obtain ⟨total, points, shares'⟩ := interrupted.exists_shares ramped edits
    (listed.labelled o (List.mem_of_getElem? at_)) shares idle
  exact ⟨result, total, passed, points, interrupted.stamped, shares',
    fun rs retries => publishes_of_retries shares' retries⟩

/-! ## A promotion that is interrupted -/

namespace Sample

open Cutover.Sample

/-- The release that gives way as another client wants it, with an instance more. -/
def edited : Release := { serving with spec.numDesired := 4 }

theorem edits_serving : Edits serving edited := ⟨rfl, rfl, rfl, rfl⟩

theorem routed_store : Ramp.Routed (stored store described) :=
  Ramp.Routed.perm stored_perm (by decide)

/-- Half of the traffic goes to the release in promotion, with one instance more than are
available. -/
def halfway : Ramp.Plan := ⟨1, 0, 50, 3, true, true⟩

theorem planOf?_store : Ramp.planOf? described (lineup store described) = some halfway := by
  rw [lineup_store]
  decide

/-- The release in promotion after the pass. -/
def raised : Release := { promoted with spec.traffic := 50, spec.numDesired := 3 }

/-- The mark is on the release already. -/
theorem labels_raised : promoted.info.labels.insert Label.promotionTarget "1" =
    promoted.info.labels := by
  refine Dict.ext_get? fun key => ?_
  by_cases same : key = Label.promotionTarget
  · subst same
    show _ = (Dict.insert _ Label.promotionTarget "1").get? Label.promotionTarget
    rw [Dict.get?_insert_self, Dict.get?_insert_self]
  · rw [Dict.get?_insert_of_ne _ _ same]

theorem raised_eq : halfway.mark 0 (halfway.assign described.desiredInstances
    described.readinessTimeout 100 0 promoted) = raised := by
  show { raised with info.labels := promoted.info.labels.insert Label.promotionTarget "1" } = raised
  rw [labels_raised]
  rfl

theorem passed_store : Ramp.pass described (lineup store described) 100 =
    .ok (halfway.carryOut described (lineup store described) 100) :=
  Ramp.pass_of_planOf? moves_store.1 planOf?_store

/-- The pass raises the one release and lowers the other. -/
theorem releases_store : ∃ lowered,
    (halfway.carryOut described (lineup store described) 100).releases = [raised, lowered] ∧
      lowered.spec.traffic = 50 := by
  refine ⟨halfway.mark 1 (halfway.assign described.desiredInstances described.readinessTimeout 100
    1 serving), ?_, rfl⟩
  rw [Ramp.releases_carryOut (Ramp.planOf?_sound planOf?_store), lineup_store, ← raised_eq]
  rfl

theorem getElem?_lineup : (lineup store described)[1]? = some serving := by
  rw [lineup_store]
  rfl

/-- The pass of `halfway`, stopped at the release that gives way. -/
abbrev Halved (s₁ : Store) : Prop :=
  Interrupted described (halfway.carryOut described (lineup store described) 100) 0 1 serving edited
    store s₁

theorem exists_halved : ∃ e s₁,
    deployBy (persistAmid 0 (intrude edited)) described 100 store = .error (.store e) s₁ ∧
      e.isConflict = true ∧ Ramped described (lineup store described)
        (halfway.carryOut described (lineup store described) 100) ∧ Halved s₁ := by
  obtain ⟨lowered, releases, traffic⟩ := releases_store
  have persisted : ∀ r ∈ lineup store described, r.info.isPersisted = true := by
    rw [lineup_store]
    simp only [List.forall_mem_cons]
    exact ⟨rfl, rfl, fun r member => by cases member⟩
  have writes : (halfway.carryOut described (lineup store described) 100).releases[1]? ≠
      some serving := by
    rw [releases]
    intro same
    cases same
    cases traffic
  exact exists_interrupted (d := described) sound_store indexed_store getByKey_described get_build
    persisted getElem?_lineup (Nat.zero_le 1) edits_serving rfl passed_store writes

/-- The release in promotion has gained its step, and the other still has what it had. -/
theorem Halved.shares {s₁ : Store} (halved : Halved s₁) (ramped : Ramped described
    (lineup store described) (halfway.carryOut described (lineup store described) 100)) :
    Shares described 125 s₁ := by
  obtain ⟨lowered, releases, -⟩ := releases_store
  obtain ⟨listed, -, -⟩ := listed_lineup sound_store indexed_store get_build
  have shares := shares_of_routed routed_store
  obtain ⟨idle, -⟩ := points_of_pass sound_store listed shares passed_store
  obtain ⟨total, points, shares₁⟩ :=
    halved.exists_shares ramped edits_serving accepts_serving shares idle
  rw [releases, lineup_store] at points
  obtain rfl : total = 125 := Nat.add_right_cancel (m := 25) points
  exact shares₁

/-- What the pass finds that comes next. -/
structure Halted (s₁ : Store) : Prop where
  sound : s₁.Sound
  indexed : s₁.Indexed
  shares : Shares described 125 s₁
  stamped : Standing described { described.status with deployUpdatedAt := 100 } s₁
  others : ∀ i, i ≠ .releases → i ≠ .descriptors → i ≠ .configMaps → Agrees i store s₁
  serves : respecified serving edited ∈ stored s₁ described
  raises : ∃ x ∈ stored s₁ described, Held raised x

theorem exists_halted : ∃ e s₁,
    deployBy (persistAmid 0 (intrude edited)) described 100 store = .error (.store e) s₁ ∧
      e.isConflict = true ∧ Halted s₁ := by
  obtain ⟨e, s₁, stops, conflict, ramped, halved⟩ := exists_halved
  obtain ⟨lowered, releases, -⟩ := releases_store
  have shares := Halved.shares halved ramped
  obtain ⟨stamped, others, s₀, agrees, indexed₀, ps, ms, length, first, stopped⟩ := halved
  obtain rfl := List.length_eq_zero_iff.1 length
  rw [releases, lineup_store] at first
  obtain rfl : ms = [(raised, promoted)] := first
  have labels : ∀ p ∈ [] ++ [(raised, promoted)], p.1.info.labels = p.2.info.labels := by
    intro p member
    obtain rfl := List.mem_singleton.1 member
    rfl
  refine ⟨e, s₁, stops, conflict, stopped.sound, stopped.indexed edits_serving labels indexed₀,
    shares, ?_, others, ?_, ?_⟩
  · rw [Ramp.deployUpdatedAt_carryOut] at stamped
    exact stamped
  · obtain ⟨xs, ys, t, u, -, -, replaces, filed⟩ := stopped
    refine (mem_scan filed.sound).2 ⟨?_, accepts_serving⟩
    rw [filed.there _ (by decide)]
    exact replaces.here
  · obtain ⟨xs, ys, t, u, -, -, -, filed⟩ := stopped
    exact filed.exists_held List.mem_cons_self

theorem Halted.any_current {s₁ : Store} (halted : Halted s₁) : (s₁.matching .releases
    (Selector.ofTarget described.spec.app described.spec.target)).any
      (isCurrent described.spec.fingerprint (Feedback.configOf s₁ described)) = true := by
  obtain ⟨x, member, held⟩ := halted.raises
  have perm := matching_perm_scan halted.sound halted.indexed .releases "web" "prod"
  refine List.any_eq_true.2 ⟨x, perm.mem_iff.2 member, ?_⟩
  have current := isCurrent_promoted
  rw [configOf_store] at current
  rw [Feedback.configOf_of_agrees (halted.others _ (by decide) (by decide) (by decide)) rfl,
    configOf_store]
  unfold isCurrent Object.label? at current ⊢
  rw [held.labels]
  exact current

/-- A second later the pass succeeds and is held. -/
theorem Halted.exists_retry {s₁ : Store} (halted : Halted s₁) :
    ∃ r, Retries described s₁ [r] ∧ r.start = s₁ ∧ r.now = 101 ∧ ∀ q ∈ [r], ¬ q.Moves := by
  obtain ⟨version, found⟩ := halted.stamped
  have built : s₁.get .builds "" described.spec.build = some build := by
    rw [(halted.others .builds (by decide) (by decide) (by decide)).get]
    exact get_build
  obtain ⟨action, s₂, done, -⟩ :=
    ends_run halted.sound halted.indexed found built halted.any_current 101
  let r : Retry :=
    { start := s₁
      descriptor := { described with status.deployUpdatedAt := 100, info.statusVersion := version }
      now := 101
      finish := s₂ }
  have succeeds : r.Succeeds described :=
    ⟨halted.sound, halted.indexed, found, rfl, rfl, action, done⟩
  obtain ⟨x, member, held⟩ := halted.raises
  have soon : 101 - 100 < described.readinessTimeout := by decide
  refine ⟨r, ⟨fun _ shares => shares, succeeds, trivial⟩, rfl, rfl, ?_⟩
  intro q member'
  rw [List.mem_singleton.1 member']
  exact succeeds.not_moves halted.serves rfl member (congrArg (·.role) held.spec) soon

/-- The pass stops when the release in promotion has its 50 points and the other one still its
75, and the points that are stored follow from the two lists. -/
theorem interrupted_promotion_splits : ∃ e s₁ r,
    deployBy (persistAmid 0 (intrude edited)) described 100 store = .error (.store e) s₁ ∧
      e.isConflict = true ∧ Shares described 125 s₁ ∧ Retries described s₁ [r] ∧
      Publishes described 125 r.finish := by
  obtain ⟨e, s₁, stops, conflict, halted⟩ := exists_halted
  obtain ⟨r, retries, -, -, still⟩ := halted.exists_retry
  obtain ⟨lowered, releases, -⟩ := releases_store
  obtain ⟨result, total, passed, points, -, shares, publishes⟩ := interrupted_pass_splits
    (d := described) sound_store indexed_store getByKey_described routed_store getElem?_lineup rfl
    (Nat.zero_le 1) edits_serving stops conflict
  cases passed.symm.trans passed_store
  rw [releases, lineup_store] at points
  obtain rfl : total = 125 := Nat.add_right_cancel (m := 25) points
  have published := publishes [r] retries 0 r rfl
  rw [List.take_succ_cons, List.take_nil, pointsAfter_of_still still] at published
  exact ⟨e, s₁, r, stops, conflict, shares, retries, published⟩

/-- **A split of 125 points.**  One active release and one target share all traffic; the pass
stores the target's step and stops at the active release, which another client has just given
an instance more.  A second later the pass succeeds, and publishes 50 and 75. -/
theorem held_retry_publishes_125 : Ramp.Routed (stored store described) ∧
    ∃ e s₁ action s₂ split,
      deployBy (persistAmid 0 (intrude edited)) described 100 store = .error (.store e) s₁ ∧
      e.isConflict = true ∧ run "web-prod" 101 s₁ = .ok action s₂ ∧
      s₂.get .trafficSplits "prod" "web" = some split ∧
      (split.spec.routes.map (·.weight)).sum = 125 := by
  obtain ⟨e, s₁, stops, conflict, halted⟩ := exists_halted
  -- The stamp of the pass that stopped holds the next one.
  obtain ⟨r, retries, start, now, still⟩ := halted.exists_retry
  obtain ⟨action, done⟩ := retries.2.1.done
  rw [start, now] at done
  obtain ⟨split, found, points⟩ := publishes_of_retries halted.shares retries 0 r rfl
  rw [List.take_succ_cons, List.take_nil, pointsAfter_of_still still] at points
  exact ⟨routed_store, e, s₁, action, r.finish, split, stops, conflict, done, found, points⟩

end Sample

end Cutover.Deployment
