/-
# Cutover.Proofs.Deployment.Persist -- storing what the ramp decided

A pass of the ramp reworks the releases that the store has listed and perhaps one that was
cut (`Rework`).  `persistAll` stores them one after the other.

When it succeeds, a scan finds them as they were stored and else what no release of the pass
has the key of (`Filed.found`).  Every single write moves the traffic of a scan by what it
moves of the release it writes, so all of them together move it by the difference of the two
lists, and the first few by that of their beginnings (`Filed.total`).  Only a new release whose
key is taken stops it, and never with a conflict: nobody else writes here.
-/
import Cutover.Deployment.Pass
import Cutover.Proofs.Ramp.Step
import Cutover.Proofs.Store.Scan

namespace Cutover.Deployment

set_option autoImplicit false

open Pass Store

variable {s s' : Store} {n o x : Release} {xs : List Release} {app target : String}

/-! ## Releases before and after the ramp, and as stored -/

/-- What a pass of the ramp may do to a release. -/
structure Rework (n o : Release) : Prop where
  info : n.info = { o.info with labels := n.info.labels }
  status : n.status = o.status
  spec : n.spec = { o.spec with
    role := n.spec.role, traffic := n.spec.traffic, numDesired := n.spec.numDesired }
  labels : ∀ label, label ≠ Label.promotionTarget → n.label? label = o.label? label

/-- The release as a store holds it, which numbers its versions and dates a new one. -/
structure Held (n x : Release) : Prop where
  same : x = { n with
    info.createdAt := x.info.createdAt
    info.specVersion := x.info.specVersion
    info.statusVersion := x.info.statusVersion }
  accepted : x.info.isPersisted = true
  dated : n.info.isPersisted = true → x.info.createdAt = n.info.createdAt

namespace Rework

theorem refl (o : Release) : Rework o o := ⟨rfl, rfl, rfl, fun _ _ => rfl⟩

theorem key (rework : Rework n o) : n.key = o.key := by
  unfold Object.key
  rw [rework.info]
  rfl

theorem isPersisted (rework : Rework n o) : n.info.isPersisted = o.info.isPersisted := by
  rw [rework.info]
  rfl

theorem specVersion (rework : Rework n o) : n.info.specVersion = o.info.specVersion := by
  rw [rework.info]

theorem accepts (rework : Rework n o) :
    (Selector.ofTarget app target).accepts n.info.labels =
      (Selector.ofTarget app target).accepts o.info.labels := by
  have app_eq : n.info.labels.get? Label.app = o.info.labels.get? Label.app :=
    rework.labels _ (by decide)
  have target_eq : n.info.labels.get? Label.target = o.info.labels.get? Label.target :=
    rework.labels _ (by decide)
  rw [Bool.eq_iff_iff, Selector.accepts_ofTarget, Selector.accepts_ofTarget, app_eq, target_eq]

theorem respecified (rework : Rework n o) :
    Store.respecified o n = { n with info.specVersion := o.info.specVersion + 1 } := by
  obtain ⟨info, spec, status⟩ := n
  obtain ⟨info', rfl, -, -⟩ := rework
  unfold Store.respecified
  simp only at info' ⊢
  rw [info']

end Rework

namespace Held

theorem spec (held : Held n x) : x.spec = n.spec := by rw [held.same]

theorem labels (held : Held n x) : x.info.labels = n.info.labels := by rw [held.same]

theorem name (held : Held n x) : x.name = n.name := by
  unfold Object.name
  rw [held.same]

theorem key (held : Held n x) : x.key = n.key := by
  unfold Object.key
  rw [held.same]
  rfl

end Held

/-- The ramp's work on a list, position by position. -/
theorem rework_of_mem_zip {p : Ramp.Plan} {rs : List Release} {desired timeout now : Nat} :
    ∀ x ∈ (p.spread desired timeout now rs).zip rs, Rework x.1 x.2 := by
  rintro ⟨n, o⟩ member
  obtain ⟨i, at_⟩ := List.getElem?_of_mem member
  obtain ⟨new, old⟩ := List.getElem?_zip_eq_some.1 at_
  rw [Ramp.spread_getElem?, old] at new
  obtain rfl : p.mark i (p.assign desired timeout now i o) = n := Option.some.inj new
  constructor
  · unfold Ramp.Plan.mark
    simp only [Ramp.info_assign]
  · exact Ramp.status_assign ..
  · show (p.assign desired timeout now i o).spec = _
    rw [Ramp.mark_spec]
    unfold Ramp.Plan.assign
    (repeat' split) <;> rfl
  · intro label ne
    unfold Object.label? Ramp.Plan.mark
    simp only [Ramp.info_assign]
    split
    · exact Dict.get?_insert_of_ne _ _ ne
    · exact Dict.get?_erase_of_ne _ ne

/-! ## One release -/

/-- A release that the store has listed is stored as the ramp left it. -/
theorem ends_persist (rework : Rework n o) (sound : s.Sound)
    (stored : s.getByKey .releases o.key = some o) :
    Ends (persist n o) s fun x s' => Replaces o x s s' ∧ x.info.isPersisted = true ∧
      ∃ version, x = { n with info.specVersion := version } := by
  have accepted := sound.accepted _ _ o stored
  have persisted : n.info.isPersisted = true := rework.isPersisted.trans accepted
  unfold persist
  simp only [persisted, Bool.not_true, Bool.false_eq_true, if_false]
  by_cases same : n = o
  · rw [if_neg (not_not_intro same)]
    subst same
    exact ends_pure ⟨Replaces.refl sound stored, accepted, n.info.specVersion, rfl⟩
  · rw [if_pos same]
    have found : s.getByKey .releases n.key = some o := rework.key.symm ▸ stored
    have raised : (Store.respecified o n).info.isPersisted = true :=
      decide_eq_true (Nat.succ_pos _)
    refine ends_write (updateSpec_eq found rework.specVersion.symm)
      ⟨?_, raised, _, rework.respecified⟩
    exact replaces_commit sound (show (Store.respecified o n).key = o.key from rfl) raised _

/-- A release and what it was, as a pass finds them when it comes to store them: the store has
what it was, or it is new and has no traffic. -/
structure Ready (s : Store) (app target : String) (p : Release × Release) : Prop where
  rework : Rework p.1 p.2
  labelled : (Selector.ofTarget app target).accepts p.2.info.labels = true
  known : p.2.info.isPersisted = true → s.getByKey .releases p.2.key = some p.2
  idle : p.2.info.isPersisted = false → p.2.spec.traffic = 0

/-- One release is stored, unless it is new and its key is taken. -/
theorem leads_persist {p : Release × Release} (sound : s.Sound) (ready : Ready s app target p) :
    Leads (persist p.1 p.2) s
      (fun x s' => Held p.1 x ∧ Puts x s s' ∧
        (p.2.info.isPersisted = false → s.getByKey .releases p.2.key = none) ∧
        (p.1.info.labels = p.2.info.labels → s.Indexed → s'.Indexed))
      fun e _ => e.isConflict = false ∧ p.2.info.isPersisted = false ∧
        (s.getByKey .releases p.2.key).isSome = true := by
  obtain ⟨n, o⟩ := p
  obtain ⟨rework, -, known, -⟩ := ready
  simp only at rework known ⊢
  cases persisted : o.info.isPersisted with
  | true =>
      refine Ends.leads ((ends_persist rework sound (known persisted)).mono ?_)
      rintro x s' ⟨replaces, accepted, version, rfl⟩
      refine ⟨⟨rfl, accepted, fun _ => rfl⟩, replaces.puts rework.key, fun new => ?_,
        fun labels indexed => ?_⟩
      · cases new
      · exact replaces.indexed (known persisted) labels indexed
  | false =>
      have new : n.info.isPersisted = false := rework.isPersisted.trans persisted
      unfold persist
      simp only [new, Bool.not_false, if_true]
      cases found : s.getByKey .releases n.key with
      | none =>
          have free : s.getByKey .releases o.key = none := rework.key ▸ found
          refine Ends.leads (ends_write (create_eq found) ⟨⟨rfl, rfl, fun seen => ?_⟩, ?_,
            fun _ => free, fun _ indexed => indexed.commit_new _ _⟩)
          · rw [new] at seen
            cases seen
          · exact puts_commit sound rfl ∅ .created
      | some current =>
          refine leads_write (fun a s' done => ?_) fun e failed => ?_
          · rw [create_taken found] at done
            cases done
          · rw [create_taken found] at failed
            cases failed
            refine ⟨rfl, trivial, ?_⟩
            rw [← rework.key, found]
            rfl

/-! ## All releases -/

/-- Of two stored releases of a pass none has the key of the other. -/
def Apart (p q : Release × Release) : Prop :=
  p.2.info.isPersisted = true → q.2.info.isPersisted = true → p.2.key ≠ q.2.key

theorem Apart.symm {p q : Release × Release} (apart : Apart p q) : Apart q p :=
  fun old old' same => apart old' old same.symm

/-- What the store holds once some releases have been stored. -/
structure Filed (app target : String) (pairs : List (Release × Release)) (xs : List Release)
    (s s' : Store) : Prop where
  held : List.Forall₂ (fun p x => Held p.1 x) pairs xs
  free : ∀ p ∈ pairs, p.2.info.isPersisted = false → s.getByKey .releases p.2.key = none
  found : (s'.scan .releases (Selector.ofTarget app target)).Perm
    (xs ++ without (pairs.map (·.2.key)) (s.scan .releases (Selector.ofTarget app target)))
  total : Ramp.totalTraffic (s'.scan .releases (Selector.ofTarget app target)) +
      Ramp.totalTraffic (pairs.map (·.2)) =
    Ramp.totalTraffic (s.scan .releases (Selector.ofTarget app target)) +
      Ramp.totalTraffic (pairs.map (·.1))
  there : ∀ key, key ∉ pairs.map (·.2.key) → s'.getByKey .releases key = s.getByKey .releases key
  others : ∀ j, j ≠ .releases → Agrees j s s'
  sound : s'.Sound
  indexed : (∀ p ∈ pairs, p.1.info.labels = p.2.info.labels) → s.Indexed → s'.Indexed

theorem totalTraffic_cons (r : Release) (rs : List Release) :
    Ramp.totalTraffic (r :: rs) = r.spec.traffic + Ramp.totalTraffic rs := by
  rw [Ramp.totalTraffic_eq_sum, Ramp.totalTraffic_eq_sum, List.map_cons, List.sum_cons]

theorem totalTraffic_append (rs rs' : List Release) :
    Ramp.totalTraffic (rs ++ rs') = Ramp.totalTraffic rs + Ramp.totalTraffic rs' := by
  rw [Ramp.totalTraffic_eq_sum, Ramp.totalTraffic_eq_sum, Ramp.totalTraffic_eq_sum, List.map_append,
    List.sum_append]

theorem totalTraffic_perm {rs rs' : List Release} (perm : rs.Perm rs') :
    Ramp.totalTraffic rs = Ramp.totalTraffic rs' := by
  rw [Ramp.totalTraffic_eq_sum, Ramp.totalTraffic_eq_sum]
  exact (perm.map _).sum_nat

/-- One release comes in place of another. -/
theorem total_of_replaced (sound : s.Sound) (puts : Puts x s s') (key : x.key = o.key)
    (known : s.getByKey .releases o.key = some o)
    (labelled : (Selector.ofTarget app target).accepts o.info.labels = true)
    (accepts : (Selector.ofTarget app target).accepts x.info.labels = true) :
    Ramp.totalTraffic (s'.scan .releases (Selector.ofTarget app target)) + o.spec.traffic =
      Ramp.totalTraffic (s.scan .releases (Selector.ofTarget app target)) + x.spec.traffic := by
  have before := (Puts.refl sound known).scan sound labelled
  have after := puts.scan sound accepts
  rw [totalTraffic_perm before, totalTraffic_perm after, totalTraffic_cons, totalTraffic_cons, key]
  omega

/-- One write moves the traffic of a scan by what it moves of the release. -/
theorem total_of_puts {p : Release × Release} (sound : s.Sound) (ready : Ready s app target p)
    (held : Held p.1 x) (puts : Puts x s s')
    (free : p.2.info.isPersisted = false → s.getByKey .releases p.2.key = none) :
    Ramp.totalTraffic (s'.scan .releases (Selector.ofTarget app target)) + p.2.spec.traffic =
      Ramp.totalTraffic (s.scan .releases (Selector.ofTarget app target)) + p.1.spec.traffic := by
  obtain ⟨rework, labelled, known, idle⟩ := ready
  have key : x.key = p.2.key := held.key.trans rework.key
  have accepts : (Selector.ofTarget app target).accepts x.info.labels = true := by
    rw [held.labels, rework.accepts]
    exact labelled
  rw [← held.spec]
  cases persisted : p.2.info.isPersisted with
  | true => exact total_of_replaced sound puts key (known persisted) labelled accepts
  | false =>
      have none_ : without [p.2.key] (s.scan .releases (Selector.ofTarget app target)) =
          s.scan .releases (Selector.ofTarget app target) := by
        refine List.filter_eq_self.2 fun y member => ?_
        have stored := ((mem_scan sound).1 member).1
        rw [decide_eq_true_eq, List.mem_singleton]
        intro same
        rw [same, free persisted] at stored
        cases stored
      rw [totalTraffic_perm (puts.scan sound accepts), totalTraffic_cons, key, none_,
        idle persisted]
      omega

theorem Ready.of_puts {p q : Release × Release} (ready : Ready s app target q)
    (puts : Puts x s s') (key : x.key = p.2.key) (apart : Apart p q)
    (free : p.2.info.isPersisted = false → s.getByKey .releases p.2.key = none) :
    Ready s' app target q where
  rework := ready.rework
  labelled := ready.labelled
  idle := ready.idle
  known := by
    intro persisted
    have stored := ready.known persisted
    rw [puts.there _ fun same => ?_]
    · exact stored
    · rw [key] at same
      cases old : p.2.info.isPersisted with
      | true => exact apart old persisted same.symm
      | false =>
          rw [same, free old] at stored
          cases stored

section Filed

variable {p q : Release × Release} {pairs : List (Release × Release)}

theorem Filed.nil (sound : s.Sound) : Filed app target [] [] s s where
  held := .nil
  free := by
    intro p member
    cases member
  found := by
    have all : without [] (s.scan .releases (Selector.ofTarget app target)) =
        s.scan .releases (Selector.ofTarget app target) := by
      simp [without]
    rw [List.map_nil, all, List.nil_append]
  total := rfl
  there := fun _ _ => rfl
  others := fun j _ => Agrees.refl j s
  sound := sound
  indexed := fun _ indexed => indexed

/-- One release is stored, and then the others, none of which has its key. -/
theorem Filed.cons {s₁ : Store} (filed : Filed app target pairs xs s₁ s') (sound : s.Sound)
    (ready : Ready s app target p) (held : Held p.1 x) (puts : Puts x s s₁)
    (free : p.2.info.isPersisted = false → s.getByKey .releases p.2.key = none)
    (kept : p.1.info.labels = p.2.info.labels → s.Indexed → s₁.Indexed)
    (fresh : p.2.key ∉ pairs.map (·.2.key)) : Filed app target (p :: pairs) (x :: xs) s s' := by
  have key : x.key = p.2.key := held.key.trans ready.rework.key
  refine ⟨.cons held filed.held, ?_, ?_, ?_, ?_, ?_, filed.sound, ?_⟩
  · refine List.forall_mem_cons.2 ⟨free, fun q member new => ?_⟩
    have none_ := filed.free q member new
    rwa [puts.there] at none_
    intro same
    exact fresh (List.mem_map.2 ⟨q, member, same.trans key⟩)
  · have accepts : (Selector.ofTarget app target).accepts x.info.labels = true := by
      rw [held.labels, ready.rework.accepts]
      exact ready.labelled
    have scanned := (puts.scan sound accepts).filter (·.key ∉ pairs.map (·.2.key))
    rw [List.filter_cons_of_pos (by simpa [key] using fresh)] at scanned
    rw [List.map_cons, without_cons, ← key]
    exact filed.found.trans ((scanned.append_left xs).trans List.perm_middle)
  · have moved := total_of_puts sound ready held puts free
    have rest := filed.total
    rw [List.map_cons, List.map_cons, totalTraffic_cons, totalTraffic_cons]
    omega
  · intro other outside
    rw [List.map_cons, List.mem_cons, not_or] at outside
    rw [filed.there other outside.2, puts.there other (key ▸ outside.1)]
  · intro j ne
    exact (puts.others j ne).trans (filed.others j ne)
  · intro labels indexed
    obtain ⟨first, rest⟩ := List.forall_mem_cons.1 labels
    exact filed.indexed rest (kept first indexed)

/-- No release that is stored has a key that was taken, unless it was the one that took it. -/
theorem Filed.not_mem_keys (filed : Filed app target pairs xs s s') {key : String}
    (taken : s.getByKey .releases key = some o)
    (olds : ∀ q ∈ pairs, q.2.info.isPersisted = true → q.2.key ≠ key) :
    key ∉ pairs.map (·.2.key) := by
  intro member
  obtain ⟨q, inside, same⟩ := List.mem_map.1 member
  have same : q.2.key = key := same
  cases old : q.2.info.isPersisted with
  | true => exact olds q inside old same
  | false =>
      rw [← same, filed.free q inside old] at taken
      cases taken

/-- Storing some releases leaves the others ready. -/
theorem Filed.ready (filed : Filed app target pairs xs s s') (ready : Ready s app target q)
    (apart : ∀ p ∈ pairs, Apart p q) : Ready s' app target q where
  rework := ready.rework
  labelled := ready.labelled
  idle := ready.idle
  known := by
    intro persisted
    have stored := ready.known persisted
    rw [filed.there _ (filed.not_mem_keys stored fun p inside old =>
      apart p inside old persisted)]
    exact stored

end Filed

/-- One of some releases is new, and its key is taken, or that of another of them. -/
def Taken (s : Store) (pairs : List (Release × Release)) : Prop :=
  ∃ p ∈ pairs, p.2.info.isPersisted = false ∧
    ((s.getByKey .releases p.2.key).isSome = true ∨ ¬ (pairs.map (·.2.key)).Nodup)

/-- **The releases are stored**, unless one is new and its key is taken. -/
theorem leads_persistAll_taken {pairs : List (Release × Release)} (sound : s.Sound)
    (ready : ∀ p ∈ pairs, Ready s app target p) (apart : pairs.Pairwise Apart) :
    Leads (persistAll pairs) s (fun xs s' => Filed app target pairs xs s s')
      fun e _ => e.isConflict = false ∧ Taken s pairs := by
  unfold persistAll
  induction pairs generalizing s with
  | nil =>
      rw [List.mapM_nil]
      exact Ends.leads (ends_pure (Filed.nil sound))
  | cons p pairs ih =>
      obtain ⟨here, there⟩ := List.forall_mem_cons.1 ready
      obtain ⟨apart, apart'⟩ := List.pairwise_cons.1 apart
      rw [List.mapM_cons]
      refine ((leads_persist sound here).mono (fun _ _ holds => holds) ?_).bind ?_
      · rintro e s' ⟨plain, new, taken⟩
        exact ⟨plain, p, List.mem_cons_self, new, .inl taken⟩
      rintro x s₁ ⟨held, puts, free, kept⟩
      have key : x.key = p.2.key := held.key.trans here.rework.key
      have ready₁ : ∀ q ∈ pairs, Ready s₁ app target q := fun q member =>
        (there q member).of_puts puts key (apart q member) free
      refine ((ih puts.sound ready₁ apart').mono (fun _ _ holds => holds) ?_).bind ?_
      · rintro e s' ⟨plain, q, member, new, taken⟩
        refine ⟨plain, q, List.mem_cons_of_mem _ member, new, ?_⟩
        -- What is taken by now was taken before, but for the key of the first release.
        by_cases same : q.2.key = p.2.key
        · refine .inr fun nodup => (List.nodup_cons.1 nodup).1 ?_
          exact List.mem_map.2 ⟨q, member, same⟩
        · rw [puts.there _ (key ▸ same)] at taken
          exact taken.imp_right fun twice nodup => twice (List.nodup_cons.1 nodup).2
      rintro xs s' filed
      -- The key is taken by now, so a new release with it would have failed, and an old one with it
      -- would have been found under it before.
      have fresh : p.2.key ∉ pairs.map (·.2.key) := by
        refine filed.not_mem_keys (o := x) (key ▸ puts.here) fun q inside old same => ?_
        cases persisted : p.2.info.isPersisted with
        | true => exact apart q inside persisted old same.symm
        | false =>
            have stored := (there q inside).known old
            rw [same, free persisted] at stored
            cases stored
      exact Ends.leads (ends_pure (filed.cons sound here held puts free kept fresh))

theorem leads_persistAll {pairs : List (Release × Release)} (sound : s.Sound)
    (ready : ∀ p ∈ pairs, Ready s app target p) (apart : pairs.Pairwise Apart) :
    Leads (persistAll pairs) s (fun xs s' => Filed app target pairs xs s s')
      fun e _ => e.isConflict = false ∧ ∃ p ∈ pairs, p.2.info.isPersisted = false := by
  refine (leads_persistAll_taken sound ready apart).mono (fun _ _ filed => filed) ?_
  rintro e s' ⟨plain, p, member, new, -⟩
  exact ⟨plain, p, member, new⟩

end Cutover.Deployment
