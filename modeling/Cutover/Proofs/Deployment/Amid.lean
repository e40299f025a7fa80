/-
# Cutover.Proofs.Deployment.Amid -- another client among the writes of a pass

Another client may write a release after the pass has read it and before the pass stores it
(`intrude`, `persistAmid`).  The versions tell: the pass stores the releases before that one
and stops there with a conflict (`leads_persistAmid`), unless it had nothing to store.

What the store then holds is the first releases as they were to be stored, the client's
release, and the others as they were (`Stopped`).  The traffic of a scan has moved by that of
the first releases alone (`Stopped.total`).
-/
import Cutover.Proofs.Deployment.Agreement

namespace Cutover.Deployment

set_option autoImplicit false

open Pass Store

variable {s s' : Store} {xs : List Release} {j k : Nat} {o o' : Release} {app target : String}

/-! ## Another client -/

/-- Another client stores a release; a refused write changes nothing. -/
def intrude (o : Release) (s : Store) : Store :=
  match s.updateSpec o with
  | .ok (_, s') => s'
  | .error _ => s

/-- Store the releases, with another client coming in after the first ones. -/
def persistAmid (j : Nat) (other : Store → Store) : Filing := fun pairs => do
  let first ← persistAll (pairs.take j)
  modify other
  let rest ← persistAll (pairs.drop j)
  return first ++ rest

theorem persistAll_append (ps qs : List (Release × Release)) :
    persistAll (ps ++ qs) = do
      let first ← persistAll ps
      let rest ← persistAll qs
      return first ++ rest := by
  unfold persistAll
  rw [List.mapM_append]

/-- With a client that does nothing it is the pass's own way. -/
theorem persistAmid_id (j : Nat) : persistAmid j id = persistAll := by
  funext pairs
  calc persistAmid j id pairs
      = (do let first ← persistAll (pairs.take j)
            let rest ← persistAll (pairs.drop j)
            return first ++ rest) := rfl
    _ = persistAll (pairs.take j ++ pairs.drop j) := (persistAll_append _ _).symm
    _ = persistAll pairs := by rw [List.take_append_drop]

/-- Then the pass is the one that nobody disturbs. -/
theorem deployBy_persistAmid_id (j : Nat) (d : Descriptor) (now : Nat) :
    deployBy (persistAmid j id) d now = deploy d now := by
  rw [persistAmid_id, deploy_eq]

/-- What the other client leaves as it was. -/
structure Edits (o o' : Release) : Prop where
  key : o'.key = o.key
  labels : o'.info.labels = o.info.labels
  role : o'.spec.role = o.spec.role
  traffic : o'.spec.traffic = o.spec.traffic

/-- The other client has seen the release as it is, and replaces it, or is refused. -/
theorem intrude_cases (sound : s.Sound) (found : s.getByKey .releases o.key = some o)
    (edits : Edits o o') :
    (o'.info.specVersion ≠ o.info.specVersion ∧ intrude o' s = s) ∨
      (o'.info.specVersion = o.info.specVersion ∧
        Replaces o (respecified o o') s (intrude o' s)) := by
  have found' : s.getByKey .releases o'.key = some o := edits.key.symm ▸ found
  by_cases seen : o.info.specVersion = o'.info.specVersion
  · right
    refine ⟨seen.symm, ?_⟩
    unfold intrude
    rw [updateSpec_eq found' seen]
    have raised : (respecified o o').info.isPersisted = true := decide_eq_true (Nat.succ_pos _)
    exact replaces_commit sound (show (respecified o o').key = o.key from rfl) raised _
  · left
    refine ⟨Ne.symm seen, ?_⟩
    unfold intrude
    rw [updateSpec_stale found' seen]

/-! ## Where the pass stops -/

/-- What is stored when a pass stops at a release that another client has replaced after the
first ones were stored. -/
def Stopped (app target : String) (ps ms : List (Release × Release)) (o o' : Release)
    (s s' : Store) : Prop :=
  ∃ xs ys s₁ s₂, Filed app target ps xs s s₁ ∧ s₁.getByKey .releases o.key = some o ∧
    Replaces o (respecified o o') s₁ s₂ ∧ Filed app target ms ys s₂ s'

/-- A release that another client replaced is not stored, unless there is nothing to store. -/
theorem leads_persist_stale {n : Release} {current : Release} (rework : Rework n o)
    (persisted : o.info.isPersisted = true) (found : s.getByKey .releases o.key = some current)
    (stale : current.info.specVersion ≠ o.info.specVersion) :
    Leads (persist n o) s (fun _ s' => n = o ∧ s' = s)
      fun e s' => e.isConflict = true ∧ s' = s := by
  have old : n.info.isPersisted = true := rework.isPersisted.trans persisted
  unfold persist
  simp only [old, Bool.not_true, Bool.false_eq_true, if_false]
  by_cases same : n = o
  · rw [if_neg (not_not_intro same)]
    exact Ends.leads (ends_pure ⟨same, rfl⟩)
  · rw [if_pos same]
    have refused := updateSpec_stale (s := s) (o := n) (rework.key.symm ▸ found)
      (rework.specVersion.symm ▸ stale)
    refine leads_write (fun a s' done => ?_) fun e failed => ?_
    · rw [refused] at done
      cases done
    · rw [refused] at failed
      cases failed
      exact ⟨rfl, rfl⟩

section Amid

variable {ps ms qs : List (Release × Release)} {n : Release}

/-- How a pass may fail among some releases: with a conflict where something holds, or without
one over a new release. -/
def Fails (pairs : List (Release × Release)) (stopped : Store → Prop) (e : StoreError)
    (s' : Store) : Prop :=
  (e.isConflict = true → stopped s') ∧
    (e.isConflict = false → ∃ p ∈ pairs, p.2.info.isPersisted = false)

/-- Storing releases that nobody else writes never ends in a conflict. -/
theorem fails_of_plain {pairs part : List (Release × Release)} {stopped : Store → Prop}
    (inside : ∀ p ∈ part, p ∈ pairs) (e : StoreError) (s' : Store)
    (plain : e.isConflict = false ∧ ∃ p ∈ part, p.2.info.isPersisted = false) :
    Fails pairs stopped e s' := by
  obtain ⟨other, p, member, new⟩ := plain
  constructor
  · intro conflict
    rw [other] at conflict
    cases conflict
  · intro _
    exact ⟨p, inside p member, new⟩

/-- Storing releases of which one is not as it was read. -/
theorem leads_persistAll_stale {current : Release} (sound : s.Sound)
    (ready : ∀ q ∈ ms ++ qs, Ready s app target q) (rework : Rework n o)
    (apart : (ms ++ (n, o) :: qs).Pairwise Apart) (persisted : o.info.isPersisted = true)
    (found : s.getByKey .releases o.key = some current)
    (stale : current.info.specVersion ≠ o.info.specVersion) :
    Leads (persistAll (ms ++ (n, o) :: qs)) s
      (fun _ s' => n = o ∧ (∀ i, i ≠ .releases → Agrees i s s') ∧ s'.Sound)
      (Fails (ms ++ (n, o) :: qs) fun s' => ∃ ys, Filed app target ms ys s s') := by
  obtain ⟨ready_ms, ready_qs⟩ := List.forall_mem_append.1 ready
  obtain ⟨apart_ms, apart_tail, across⟩ := List.pairwise_append.1 apart
  obtain ⟨apart_o, apart_qs⟩ := List.pairwise_cons.1 apart_tail
  rw [persistAll_append]
  refine ((leads_persistAll sound ready_ms apart_ms).mono (fun _ _ filed => filed)
    (fails_of_plain fun p member => List.mem_append_left _ member)).bind ?_
  rintro ys s₁ filed
  -- The first releases have other keys, so that the one in question is still not as it was read.
  have found₁ : s₁.getByKey .releases o.key = some current := by
    rw [filed.there _ (filed.not_mem_keys found fun p member old =>
      across p member _ List.mem_cons_self old persisted)]
    exact found
  have rest : Leads (persistAll ((n, o) :: qs)) s₁
      (fun _ s' => n = o ∧ (∀ i, i ≠ .releases → Agrees i s s') ∧ s'.Sound)
      (Fails (ms ++ (n, o) :: qs) fun s' => ∃ ys, Filed app target ms ys s s') := by
    unfold persistAll
    rw [List.mapM_cons]
    refine ((leads_persist_stale rework persisted found₁ stale).mono (fun _ _ kept => kept)
      ?_).bind ?_
    · rintro e s' ⟨conflict, rfl⟩
      constructor
      · intro _
        exact ⟨ys, filed⟩
      · intro other
        rw [conflict] at other
        cases other
    rintro x s₂ ⟨same, rfl⟩
    have ready_qs₁ : ∀ q ∈ qs, Ready s₂ app target q := fun q member =>
      filed.ready (ready_qs q member) fun p inside =>
        across p inside q (List.mem_cons_of_mem _ member)
    refine ((leads_persistAll filed.sound ready_qs₁ apart_qs).mono (fun _ _ filed => filed)
      (fails_of_plain fun p member =>
        List.mem_append_right _ (List.mem_cons_of_mem _ member))).bind ?_
    rintro zs s₃ filed₃
    exact Ends.leads (ends_pure ⟨same, fun i ne => (filed.others i ne).trans (filed₃.others i ne),
      filed₃.sound⟩)
  exact rest.bind fun zs s' holds => Ends.leads (ends_pure holds)

/-- A release that another client replaces leaves the others ready. -/
theorem Ready.of_replaced {q : Release × Release} (ready : Ready s app target q)
    (replaces : Replaces o (respecified o o') s s') (persisted : o.info.isPersisted = true)
    (apart : Apart (n, o) q) : Ready s' app target q := by
  refine ready.of_puts (replaces.puts rfl) rfl apart fun new => ?_
  rw [persisted] at new
  cases new

/-- Storing releases after another client has replaced one of them. -/
theorem leads_persistAll_replaced (ready : ∀ q ∈ ms ++ (n, o) :: qs, Ready s app target q)
    (apart : (ms ++ (n, o) :: qs).Pairwise Apart) (persisted : o.info.isPersisted = true)
    (replaces : Replaces o (respecified o o') s s') :
    Leads (persistAll (ms ++ (n, o) :: qs)) s'
      (fun _ t => n = o ∧ (∀ i, i ≠ .releases → Agrees i s' t) ∧ t.Sound)
      (Fails (ms ++ (n, o) :: qs) fun t => ∃ ys, Filed app target ms ys s' t) := by
  obtain ⟨-, apart_tail, across⟩ := List.pairwise_append.1 apart
  obtain ⟨apart_o, -⟩ := List.pairwise_cons.1 apart_tail
  have puts := replaces.puts (show (respecified o o').key = o.key from rfl)
  have here : (n, o) ∈ ms ++ (n, o) :: qs := List.mem_append_right _ List.mem_cons_self
  have others : ∀ q ∈ ms ++ qs, Ready s' app target q := by
    rw [List.forall_mem_append]
    constructor
    · intro q member
      exact (ready q (List.mem_append_left _ member)).of_replaced replaces persisted
        (across q member _ List.mem_cons_self).symm
    · intro q member
      exact (ready q (List.mem_append_right _ (List.mem_cons_of_mem _ member))).of_replaced
        replaces persisted (apart_o q member)
  exact leads_persistAll_stale puts.sound others (ready (n, o) here).rework apart persisted
    puts.here (Nat.succ_ne_self _)

/-- **A pass with another client in between.**  It stops with a conflict at the release that the
client has replaced, the ones before it being stored, or goes through because that release was
not to be written. -/
theorem leads_persistAmid (sound : s.Sound)
    (ready : ∀ p ∈ ps ++ (ms ++ (n, o) :: qs), Ready s app target p)
    (apart : (ps ++ (ms ++ (n, o) :: qs)).Pairwise Apart) (persisted : o.info.isPersisted = true)
    (edits : Edits o o') :
    Leads (persistAmid ps.length (intrude o') (ps ++ (ms ++ (n, o) :: qs))) s
      (fun _ s' => (n = o ∨ o'.info.specVersion ≠ o.info.specVersion) ∧
        (∀ i, i ≠ .releases → Agrees i s s') ∧ s'.Sound)
      (Fails (ps ++ (ms ++ (n, o) :: qs)) fun s' => Stopped app target ps ms o o' s s') := by
  obtain ⟨ready_ps, ready_rest⟩ := List.forall_mem_append.1 ready
  obtain ⟨apart_ps, apart_rest, across⟩ := List.pairwise_append.1 apart
  have here : (n, o) ∈ ms ++ (n, o) :: qs := List.mem_append_right _ List.mem_cons_self
  unfold persistAmid
  rw [List.take_left, List.drop_left]
  refine ((leads_persistAll sound ready_ps apart_ps).mono (fun _ _ filed => filed)
    (fails_of_plain fun p member => List.mem_append_left _ member)).bind ?_
  rintro first s₁ filed₁
  have ready₁ : ∀ q ∈ ms ++ (n, o) :: qs, Ready s₁ app target q := fun q member =>
    filed₁.ready (ready_rest q member) fun p inside => across p inside q member
  have known : s₁.getByKey .releases o.key = some o := (ready₁ (n, o) here).known persisted
  refine leads_modify ?_
  -- A refused client leaves the store alone, and this is an undisturbed pass in two parts.
  rcases intrude_cases filed₁.sound known edits with ⟨refused, same⟩ | ⟨seen, replaces⟩
  · rw [same]
    refine ((leads_persistAll filed₁.sound ready₁ apart_rest).mono (fun _ _ filed => filed)
      (fails_of_plain fun p member => List.mem_append_right _ member)).bind ?_
    rintro rest s₂ filed₂
    exact Ends.leads (ends_pure ⟨.inr refused,
      fun i ne => (filed₁.others i ne).trans (filed₂.others i ne), filed₂.sound⟩)
  · refine ((leads_persistAll_replaced ready₁ apart_rest persisted replaces).mono
      (fun _ _ through => through) ?_).bind ?_
    · rintro e s' ⟨conflict, plain⟩
      constructor
      · intro stale
        obtain ⟨ys, filed₂⟩ := conflict stale
        exact ⟨first, ys, s₁, _, filed₁, known, replaces, filed₂⟩
      · intro other
        obtain ⟨p, member, new⟩ := plain other
        exact ⟨p, List.mem_append_right _ member, new⟩
    rintro rest s₂ ⟨same, others, sound₂⟩
    refine Ends.leads (ends_pure ⟨.inl same, fun i ne => ?_, sound₂⟩)
    exact ((filed₁.others i ne).trans (replaces.others i ne)).trans (others i ne)

theorem exists_split {α : Type} {l : List α} {a : α} (at_ : l[k]? = some a) (le : j ≤ k) :
    ∃ ps ms qs, l = ps ++ (ms ++ a :: qs) ∧ ps.length = j ∧ ps ++ ms = l.take k := by
  obtain ⟨lt, rfl⟩ := List.getElem?_eq_some_iff.1 at_
  refine ⟨(l.take k).take j, (l.take k).drop j, l.drop (k + 1), ?_, ?_, List.take_append_drop ..⟩
  · rw [← List.append_assoc, List.take_append_drop, ← List.drop_eq_getElem_cons lt,
      List.take_append_drop]
  · rw [List.length_take, List.length_take]
    omega

/-- What is stored when a pass stops at a position of its list, the client having come in after
some releases of it. -/
def StoppedAt (app target : String) (pairs : List (Release × Release)) (j k : Nat)
    (o o' : Release) (s s' : Store) : Prop :=
  ∃ ps ms, ps.length = j ∧ ps ++ ms = pairs.take k ∧ Stopped app target ps ms o o' s s'

/-- `leads_persistAmid` by positions. -/
theorem leads_persistAmid_at {pairs : List (Release × Release)} (sound : s.Sound)
    (ready : ∀ p ∈ pairs, Ready s app target p) (apart : pairs.Pairwise Apart)
    (at_ : pairs[k]? = some (n, o)) (persisted : o.info.isPersisted = true) (le : j ≤ k)
    (edits : Edits o o') :
    Leads (persistAmid j (intrude o') pairs) s
      (fun _ s' => (n = o ∨ o'.info.specVersion ≠ o.info.specVersion) ∧
        (∀ i, i ≠ .releases → Agrees i s s') ∧ s'.Sound)
      (Fails pairs fun s' => StoppedAt app target pairs j k o o' s s') := by
  obtain ⟨ps, ms, qs, rfl, rfl, first⟩ := exists_split at_ le
  refine (leads_persistAmid sound ready apart persisted edits).mono (fun _ _ through => through) ?_
  rintro e s' ⟨conflict, plain⟩
  exact ⟨fun stale => ⟨ps, ms, rfl, first, conflict stale⟩, plain⟩

/-! ## What is stored where the pass stopped -/

theorem Filed.idle {pairs : List (Release × Release)} (filed : Filed app target pairs xs s s')
    (before : Idle (s.scan .releases (Selector.ofTarget app target)))
    (news : Idle (pairs.map (·.1))) :
    Idle (s'.scan .releases (Selector.ofTarget app target)) := by
  intro r member
  rcases List.mem_append.1 (filed.found.mem_iff.1 member) with inside | inside
  · exact idle_held (List.forall₂_map_left_iff.2 filed.held) news r inside
  · exact before r (mem_without.1 inside).1

section Stopped

variable (stopped : Stopped app target ps ms o o' s s')

include stopped

theorem Stopped.others (i : Kind) (ne : i ≠ .releases) : Agrees i s s' := by
  obtain ⟨xs, ys, s₁, s₂, filed, known, replaces, filed'⟩ := stopped
  exact ((filed.others i ne).trans (replaces.others i ne)).trans (filed'.others i ne)

theorem Stopped.sound : s'.Sound := by
  obtain ⟨xs, ys, s₁, s₂, filed, known, replaces, filed'⟩ := stopped
  exact filed'.sound

/-- If no mark is moved, the index stays complete. -/
theorem Stopped.indexed (edits : Edits o o')
    (labels : ∀ p ∈ ps ++ ms, p.1.info.labels = p.2.info.labels) (indexed : s.Indexed) :
    s'.Indexed := by
  obtain ⟨xs, ys, s₁, s₂, filed, known, replaces, filed'⟩ := stopped
  obtain ⟨first, second⟩ := List.forall_mem_append.1 labels
  exact filed'.indexed second (replaces.indexed known edits.labels (filed.indexed first indexed))

variable (edits : Edits o o')
  (labelled : (Selector.ofTarget app target).accepts o.info.labels = true)

include edits labelled

/-- The stored traffic has moved by what the stored releases gained or lost. -/
theorem Stopped.total : Ramp.totalTraffic (s'.scan .releases (Selector.ofTarget app target)) +
      Ramp.totalTraffic ((ps ++ ms).map (·.2)) =
    Ramp.totalTraffic (s.scan .releases (Selector.ofTarget app target)) +
      Ramp.totalTraffic ((ps ++ ms).map (·.1)) := by
  obtain ⟨xs, ys, s₁, s₂, filed, known, replaces, filed'⟩ := stopped
  have accepts : (Selector.ofTarget app target).accepts (respecified o o').info.labels = true := by
    show (Selector.ofTarget app target).accepts o'.info.labels = true
    rw [edits.labels]
    exact labelled
  have client := total_of_replaced (o := o) filed.sound (replaces.puts rfl) rfl known labelled
    accepts
  have traffic : (respecified o o').spec.traffic = o.spec.traffic := edits.traffic
  have first := filed.total
  have second := filed'.total
  rw [List.map_append, List.map_append, totalTraffic_append, totalTraffic_append]
  omega

/-- Still only active and target releases have traffic. -/
theorem Stopped.idle (before : Idle (s.scan .releases (Selector.ofTarget app target)))
    (news : Idle ((ps ++ ms).map (·.1))) :
    Idle (s'.scan .releases (Selector.ofTarget app target)) := by
  obtain ⟨xs, ys, s₁, s₂, filed, known, replaces, filed'⟩ := stopped
  rw [List.map_append] at news
  obtain ⟨first, second⟩ := List.forall_mem_append.1 news
  have idle₁ := filed.idle before first
  refine filed'.idle (fun r member => ?_) second
  obtain ⟨found, accepts⟩ := (mem_scan replaces.sound).1 member
  by_cases same : r.key = o.key
  · rw [same, replaces.here] at found
    cases found
    show o'.spec.role ≠ .active → o'.spec.role ≠ .target → o'.spec.traffic = 0
    rw [edits.role, edits.traffic]
    exact idle₁ o ((mem_scan filed.sound).2 ⟨known, labelled⟩)
  · rw [replaces.there _ same] at found
    exact idle₁ r ((mem_scan filed.sound).2 ⟨found, accepts⟩)

end Stopped

end Amid

end Cutover.Deployment
