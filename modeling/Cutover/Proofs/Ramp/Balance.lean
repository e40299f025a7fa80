/-
# Cutover.Proofs.Ramp.Balance -- roles and traffic always fit together

`Balanced rs` says that one release is active, at most one is the target, the mark of a
promotion stands on the target alone, active and target share all traffic with the
target short of it, and every other release has none.

A pass that moves balances any list whatever (`balanced_spread`); it neither needs the
correction of the split nor touches a bad release's role.  Every other event of a
rollout keeps the balance (`balanced_step`), so every run does
(`balanced_by_pass_and_along_runs`).

Balance sees a release only through its role, its traffic and whether it is marked
(`face`), and a list only up to order.
-/
import Cutover.Proofs.Ramp.Rollout
import Mathlib.Data.List.Perm.Basic

namespace Cutover.Ramp

set_option autoImplicit false

variable {d : Descriptor} {rs : List Release} {now : Nat} {p : Plan}

/-! ## The invariant -/

/-- All traffic of the releases with a role. -/
def trafficOf (role : ReleaseRole) (rs : List Release) : Nat :=
  ((rs.filter (·.spec.role = role)).map (·.spec.traffic)).sum

/-- One active release and at most one target share all traffic. -/
structure Routed (rs : List Release) : Prop where
  one_active : rs.countP (·.spec.role = .active) = 1
  one_target : rs.countP (·.spec.role = .target) ≤ 1
  whole : trafficOf .active rs + trafficOf .target rs = 100
  idle : ∀ r ∈ rs, r.spec.role ≠ .active → r.spec.role ≠ .target → r.spec.traffic = 0

/-- The split is routed, the mark stands on the target alone, and the target lacks some
traffic. -/
structure Balanced (rs : List Release) : Prop extends Routed rs where
  marked : ∀ r ∈ rs, (r.label? Label.promotionTarget).isSome ↔ r.spec.role = .target
  below : ∀ r ∈ rs, r.spec.role = .target → r.spec.traffic < 100

instance : Decidable (Routed rs) :=
  decidable_of_iff (rs.countP (·.spec.role = .active) = 1 ∧ rs.countP (·.spec.role = .target) ≤ 1 ∧
      trafficOf .active rs + trafficOf .target rs = 100 ∧
      ∀ r ∈ rs, r.spec.role ≠ .active → r.spec.role ≠ .target → r.spec.traffic = 0)
    ⟨fun ⟨active, target, whole, idle⟩ => ⟨active, target, whole, idle⟩,
      fun h => ⟨h.one_active, h.one_target, h.whole, h.idle⟩⟩

instance : Decidable (Balanced rs) :=
  decidable_of_iff (Routed rs ∧
      (∀ r ∈ rs, (r.label? Label.promotionTarget).isSome ↔ r.spec.role = .target) ∧
      ∀ r ∈ rs, r.spec.role = .target → r.spec.traffic < 100)
    ⟨fun ⟨routed, marked, below⟩ => ⟨routed, marked, below⟩,
      fun h => ⟨h.toRouted, h.marked, h.below⟩⟩

/-! ## What balance sees -/

/-- What balance sees of a release. -/
def face (r : Release) : ReleaseRole × Nat × Bool :=
  (r.spec.role, r.spec.traffic, (r.label? Label.promotionTarget).isSome)

theorem countP_eq_of_faces {rs rs' : List Release} (same : rs'.map face = rs.map face)
    (role : ReleaseRole) :
    rs'.countP (·.spec.role = role) = rs.countP (·.spec.role = role) := by
  have (l : List Release) : l.countP (·.spec.role = role) = (l.map face).countP (·.1 = role) := by
    rw [List.countP_map]; rfl
  rw [this, this, same]

theorem trafficOf_eq_of_faces {rs rs' : List Release} (same : rs'.map face = rs.map face)
    (role : ReleaseRole) : trafficOf role rs' = trafficOf role rs := by
  have (l : List Release) :
      trafficOf role l = (((l.map face).filter (·.1 = role)).map (·.2.1)).sum := by
    rw [List.filter_map, List.map_map]; rfl
  rw [this, this, same]

theorem findIdx?_eq_of_faces {rs rs' : List Release} (same : rs'.map face = rs.map face)
    (role : ReleaseRole) :
    rs'.findIdx? (·.spec.role = role) = rs.findIdx? (·.spec.role = role) := by
  have (l : List Release) :
      l.findIdx? (·.spec.role = role) = (l.map face).findIdx? (·.1 = role) := by
    rw [List.findIdx?_map]; rfl
  rw [this, this, same]

theorem forall_of_faces {rs rs' : List Release} (same : rs'.map face = rs.map face)
    (P : ReleaseRole × Nat × Bool → Prop) (h : ∀ r ∈ rs, P (face r)) : ∀ r ∈ rs', P (face r) := by
  rw [← List.forall_mem_map] at h ⊢
  rwa [same]

theorem Routed.of_faces {rs rs' : List Release} (same : rs'.map face = rs.map face)
    (routed : Routed rs) : Routed rs' := by
  refine ⟨?_, ?_, ?_, ?_⟩
  · rw [countP_eq_of_faces same]; exact routed.one_active
  · rw [countP_eq_of_faces same]; exact routed.one_target
  · rw [trafficOf_eq_of_faces same, trafficOf_eq_of_faces same]; exact routed.whole
  · exact forall_of_faces same (fun f => f.1 ≠ .active → f.1 ≠ .target → f.2.1 = 0) routed.idle

/-- Balance is a matter of faces. -/
theorem Balanced.of_faces {rs rs' : List Release} (same : rs'.map face = rs.map face)
    (balanced : Balanced rs) : Balanced rs' where
  toRouted := balanced.toRouted.of_faces same
  marked := forall_of_faces same (fun f => f.2.2 ↔ f.1 = .target) balanced.marked
  below := forall_of_faces same (fun f => f.1 = .target → f.2.1 < 100) balanced.below

theorem map_face_modify (rs : List Release) (i : Nat) (f : Release → Release)
    (same : ∀ r, rs[i]? = some r → face (f r) = face r) :
    (rs.modify i f).map face = rs.map face := by
  apply List.ext_getElem?
  intro j
  rw [List.getElem?_map, List.getElem?_map, List.getElem?_modify]
  by_cases e : i = j
  · subst e
    cases at_ : rs[i]? with
    | none => rfl
    | some r => simp [same r at_]
  · simp [e]

theorem Routed.perm {rs rs' : List Release} (perm : rs'.Perm rs) (routed : Routed rs) :
    Routed rs' := by
  have traffic (role : ReleaseRole) : trafficOf role rs' = trafficOf role rs :=
    ((perm.filter _).map _).sum_nat
  refine ⟨?_, ?_, ?_, ?_⟩
  · rw [perm.countP_eq]
    exact routed.one_active
  · rw [perm.countP_eq]
    exact routed.one_target
  · rw [traffic, traffic]
    exact routed.whole
  · exact fun r member => routed.idle r (perm.mem_iff.1 member)

theorem Balanced.perm {rs rs' : List Release} (perm : rs'.Perm rs) (balanced : Balanced rs) :
    Balanced rs' where
  toRouted := balanced.toRouted.perm perm
  marked := fun r member => balanced.marked r (perm.mem_iff.1 member)
  below := fun r member => balanced.below r (perm.mem_iff.1 member)

/-- A release that balance does not notice. -/
structure Unnoticed (r : Release) : Prop where
  not_active : r.spec.role ≠ .active
  not_target : r.spec.role ≠ .target
  traffic : r.spec.traffic = 0
  unmarked : ¬ (r.label? Label.promotionTarget).isSome

theorem balanced_cons_iff {r : Release} (h : Unnoticed r) : Balanced (r :: rs) ↔ Balanced rs := by
  have counts (role : ReleaseRole) (ne : r.spec.role ≠ role) :
      (r :: rs).countP (·.spec.role = role) = rs.countP (·.spec.role = role) :=
    List.countP_cons_of_neg (by simpa using ne)
  have traffic (role : ReleaseRole) (ne : r.spec.role ≠ role) :
      trafficOf role (r :: rs) = trafficOf role rs := by
    unfold trafficOf
    rw [List.filter_cons_of_neg (by simpa using ne)]
  constructor
  · rintro ⟨⟨active, target, whole, idle⟩, marked, below⟩
    rw [counts _ h.not_active] at active
    rw [counts _ h.not_target] at target
    rw [traffic _ h.not_active, traffic _ h.not_target] at whole
    exact ⟨⟨active, target, whole, fun x m => idle x (List.mem_cons_of_mem _ m)⟩,
      fun x m => marked x (List.mem_cons_of_mem _ m),
      fun x m => below x (List.mem_cons_of_mem _ m)⟩
  · rintro ⟨⟨active, target, whole, idle⟩, marked, below⟩
    refine ⟨⟨?_, ?_, ?_, ?_⟩, ?_, ?_⟩
    · rwa [counts _ h.not_active]
    · rwa [counts _ h.not_target]
    · rwa [traffic _ h.not_active, traffic _ h.not_target]
    · exact List.forall_mem_cons.2 ⟨fun _ _ => h.traffic, idle⟩
    · exact List.forall_mem_cons.2 ⟨by simp [h.unmarked, h.not_target], marked⟩
    · exact List.forall_mem_cons.2 ⟨fun e => absurd e h.not_target, below⟩

theorem unnoticed_of_isFresh {r : Release} (fresh : r.IsFresh) : Unnoticed r where
  not_active := by rw [fresh.role]; decide
  not_target := by rw [fresh.role]; decide
  traffic := fresh.traffic
  unmarked := by simp [fresh.unmarked]

/-! ## A pass that moves balances any list -/

theorem countP_eq_one_of_index {α : Type} {q : α → Bool} {l : List α} {a : Nat}
    (lt : a < l.length) (only : ∀ i x, l[i]? = some x → (q x = true ↔ i = a)) :
    l.countP q = 1 := by
  induction l generalizing a with
  | nil => simp at lt
  | cons y rest ih =>
      cases a with
      | zero =>
          have head : q y = true := (only 0 y rfl).2 rfl
          have tail : rest.countP q = 0 := List.countP_eq_zero.2 fun x member h => by
            obtain ⟨i, at_⟩ := List.getElem?_of_mem member
            have := (only (i + 1) x at_).1 h
            omega
          rw [List.countP_cons_of_pos head, tail]
      | succ a =>
          have head : ¬ q y = true := fun h => by
            have := (only 0 y rfl).1 h
            omega
          rw [List.countP_cons_of_neg head]
          exact ih (by simpa using lt) fun i x at_ => by simpa using only (i + 1) x at_

/-- If no other release has traffic, all of it is with active and target. -/
theorem totalTraffic_of_idle
    (idle : ∀ r ∈ rs, r.spec.role ≠ .active → r.spec.role ≠ .target → r.spec.traffic = 0) :
    totalTraffic rs = trafficOf .active rs + trafficOf .target rs := by
  rw [totalTraffic_eq_sum]
  induction rs with
  | nil => rfl
  | cons r rest ih =>
      obtain ⟨head, tail⟩ := List.forall_mem_cons.1 idle
      have := ih tail
      by_cases active : r.spec.role = .active
      · simp [trafficOf, active] at this ⊢
        omega
      · by_cases target : r.spec.role = .target
        · simp [trafficOf, target] at this ⊢
          omega
        · simp [trafficOf, active, target, head active target] at this ⊢
          omega

section Spread

variable {desired timeout : Nat}

/-- Role, traffic and mark of the release at a position after the pass. -/
theorem role_spread {i : Nat} {after : Release}
    (h : (p.spread desired timeout now rs)[i]? = some after) : ∃ r, rs[i]? = some r ∧
      after.spec.role = (if i = p.active then .active else if i = p.target then .target
        else if r.spec.role = .bad then .bad else .none) ∧
      after.spec.traffic = p.share i ∧
      after.label? Label.promotionTarget =
        if i = p.target ∧ p.target ≠ p.active then some "1" else none := by
  obtain ⟨r, at_, rfl⟩ := exists_of_spread_getElem? h
  exact ⟨r, at_, role_assign .., traffic_assign .., label?_mark ..⟩

theorem active_spread_iff {i : Nat} {after : Release}
    (h : (p.spread desired timeout now rs)[i]? = some after) :
    after.spec.role = .active ↔ i = p.active := by
  obtain ⟨r, -, role, -, -⟩ := role_spread h
  rw [role]
  split
  · rename_i e
    simp [e]
  · rename_i ne
    split
    · simp [ne]
    · split <;> simp [ne]

theorem target_spread_iff {i : Nat} {after : Release}
    (h : (p.spread desired timeout now rs)[i]? = some after) :
    after.spec.role = .target ↔ i = p.target ∧ p.target ≠ p.active := by
  obtain ⟨r, -, role, -, -⟩ := role_spread h
  rw [role]
  split
  · rename_i e
    simp [e, eq_comm]
  · rename_i ne
    split
    · rename_i e
      exact ⟨fun _ => ⟨e, fun same => ne (e.trans same)⟩, fun _ => rfl⟩
    · rename_i ne'
      split <;> simp [ne']

theorem bad_spread_iff {i : Nat} {before after : Release} (at_ : rs[i]? = some before)
    (h : (p.spread desired timeout now rs)[i]? = some after)
    (active : i = p.active → before.spec.role ≠ .bad)
    (target : i = p.target → before.spec.role ≠ .bad) :
    after.spec.role = .bad ↔ before.spec.role = .bad := by
  obtain ⟨r, at', role, -, -⟩ := role_spread h
  cases at_.symm.trans at'
  rw [role]
  split
  · simp [active ‹_›]
  · split
    · simp [target ‹_›]
    · split <;> simp [*]

theorem findIdx?_of_only {α : Type} {q : α → Bool} {l : List α} {a : Nat} (lt : a < l.length)
    (only : ∀ i x, l[i]? = some x → (q x = true ↔ i = a)) : l.findIdx? q = some a := by
  refine List.findIdx?_eq_some_iff_getElem.2 ⟨lt, ?_, fun j below h => ?_⟩
  · exact (only a _ (List.getElem?_eq_getElem lt)).2 rfl
  · have := (only j _ (List.getElem?_eq_getElem (Nat.lt_trans below lt))).1 h
    omega

theorem activeIndex_spread (sound : p.Sound rs) :
    activeIndex (p.spread desired timeout now rs) = some p.active :=
  findIdx?_of_only (by simpa using sound.active_lt)
    fun i r at_ => by simpa using active_spread_iff at_

/-- The position a plan names is the target's after the pass. -/
theorem targetIndex_spread (sound : p.Sound rs) :
    targetIndex (p.spread desired timeout now rs) = some p.target := by
  unfold targetIndex
  rw [activeIndex_spread sound]
  by_cases one : p.target = p.active
  · have none : (p.spread desired timeout now rs).findIdx? (·.spec.role = .target) = none := by
      refine List.findIdx?_eq_none_iff.2 fun r member => ?_
      obtain ⟨i, at_⟩ := List.getElem?_of_mem member
      simpa using mt (target_spread_iff at_).1 fun h => h.2 one
    rw [none, one]
    rfl
  · have some : (p.spread desired timeout now rs).findIdx? (·.spec.role = .target) =
        some p.target :=
      findIdx?_of_only (by simpa using sound.target_lt)
        fun i r at_ => by simpa [one] using target_spread_iff at_
    rw [some]
    rfl

/-- **A sound plan balances any list.** -/
theorem balanced_spread (sound : p.Sound rs) :
    Balanced (p.spread desired timeout now rs) := by
  have position {r : Release} (m : r ∈ p.spread desired timeout now rs) :
      ∃ i, (p.spread desired timeout now rs)[i]? = some r := List.getElem?_of_mem m
  have idle : ∀ r ∈ p.spread desired timeout now rs, r.spec.role ≠ .active →
      r.spec.role ≠ .target → r.spec.traffic = 0 := by
    intro r member notActive notTarget
    obtain ⟨i, at_⟩ := position member
    obtain ⟨-, -, -, traffic, -⟩ := role_spread at_
    have a := mt (active_spread_iff at_).2 notActive
    have t : i ≠ p.target := fun e =>
      mt (target_spread_iff at_).2 notTarget ⟨e, fun same => a (e.trans same)⟩
    simp [traffic, Plan.share, a, t]
  refine ⟨⟨?_, ?_, ?_, idle⟩, ?_, ?_⟩
  · exact countP_eq_one_of_index (a := p.active) (by simpa using sound.active_lt)
      fun i r at_ => by simpa using active_spread_iff at_
  · by_cases one : p.target = p.active
    · have none : (p.spread desired timeout now rs).countP (·.spec.role = .target) = 0 :=
        List.countP_eq_zero.2 fun r member => by
          obtain ⟨i, at_⟩ := position member
          simpa using mt (target_spread_iff at_).1 fun h => h.2 one
      omega
    · refine Nat.le_of_eq (countP_eq_one_of_index (a := p.target) (by simpa using sound.target_lt)
        fun i r at_ => ?_)
      simpa [one] using target_spread_iff at_
  · rw [← totalTraffic_of_idle idle, totalTraffic_spread sound]
  · intro r member
    obtain ⟨i, at_⟩ := position member
    obtain ⟨-, -, -, -, mark⟩ := role_spread at_
    rw [target_spread_iff at_, mark]
    split <;> simp [*]
  · intro r member target
    obtain ⟨i, at_⟩ := position member
    obtain ⟨-, -, -, traffic, -⟩ := role_spread at_
    obtain ⟨rfl, ne⟩ := (target_spread_iff at_).1 target
    have notWhole := mt sound.whole_iff.2 (Ne.symm ne)
    have le := sound.traffic_le
    rw [traffic, Plan.share, if_neg ne, if_pos rfl]
    omega

end Spread

/-! ## Every other event keeps the balance -/

theorem balanced_step (s : Rollout) (e : Rollout.Event) (allowed : e.Allowed s)
    (balanced : Balanced s.releases) : Balanced (s.step e).releases := by
  cases e with
  | pass now =>
      rcases s.releases_step_pass now with same | ⟨p, planned, spread⟩
      · rwa [same]
      · rw [spread]
        exact balanced_spread (planOf?_sound planned)
  | observe i status => exact balanced.of_faces (map_face_modify _ _ _ fun _ _ => rfl)
  | describe d => exact balanced
  | add r => exact (balanced_cons_iff (unnoticed_of_isFresh allowed)).2 balanced
  | store i info =>
      refine balanced.of_faces (map_face_modify _ _ _ fun r at_ => ?_)
      have label := allowed r at_
      simp only [face, Object.label?] at label ⊢
      rw [label]
  | drop i =>
      by_cases lt : i < s.releases.length
      · have at_ : s.releases[i]? = some s.releases[i] := List.getElem?_eq_getElem lt
        have member := List.getElem_mem lt
        obtain ⟨notActive, notTarget⟩ := allowed _ at_
        have unnoticed : Unnoticed s.releases[i] :=
          ⟨notActive, notTarget, balanced.idle _ member notActive notTarget,
            mt (balanced.marked _ member).1 notTarget⟩
        have perm := List.getElem_cons_eraseIdx_perm lt
        exact (balanced_cons_iff unnoticed).1 (balanced.perm perm)
      · have same : s.releases.eraseIdx i = s.releases := List.eraseIdx_of_length_le (by omega)
        simp only [Rollout.step, same]
        exact balanced
  | arrange rs => exact balanced.perm allowed

/-- The target of a plan was not bad, and had failed only if it was active. -/
theorem planOf?_target_spec (planned : planOf? d rs = some p) :
    ∃ before, rs[p.target]? = some before ∧ before.spec.role ≠ .bad ∧
      (before.status.state = .failed → before.spec.role = .active) := by
  obtain ⟨c, r, -, at_, deployable, made⟩ := planOf?_made planned
  refine ⟨r, made.target_eq ▸ at_, ?_, ?_⟩
  · rintro bad
    simp [Release.isDeployable, bad] at deployable
  · intro failed
    have : r.spec.role ≠ .bad ∧ r.spec.role = .active := by
      simpa [Release.isDeployable, failed] using deployable
    exact this.2

/-- The release that is active after a pass was not bad. -/
theorem planOf?_active_spec (planned : planOf? d rs = some p) :
    ∃ before, rs[p.active]? = some before ∧ before.spec.role ≠ .bad := by
  obtain ⟨target, at_, notBad, -⟩ := planOf?_target_spec planned
  obtain ⟨c, r, -, -, -, made⟩ := planOf?_made planned
  cases made with
  | stopped zero => exact ⟨target, at_, notBad⟩
  | steady positive own => exact ⟨target, at_, notBad⟩
  | @ramping a positive active ne traffic raised given raise =>
      obtain ⟨old, oldAt, role⟩ := activeIndex_spec active
      show ∃ before, rs[if traffic = 100 then c else a]? = some before ∧ _
      split
      · exact ⟨target, at_, notBad⟩
      · exact ⟨old, oldAt, by simp [role]⟩

/-- **Roles and traffic fit together.**  A pass that moves balances whatever list it is
given, without a correction of the split; it leaves the bad releases bad and no other,
and its target was neither bad nor, unless it was active, failed.  Every run keeps the
balance. -/
theorem balanced_by_pass_and_along_runs :
    (∀ (d : Descriptor) (rs : List Release) (now : Nat), Moves d rs now →
      ∃ p result, planOf? d rs = some p ∧ pass d rs now = .ok result ∧
        Balanced result.releases ∧
        totalTraffic (p.spread d.desiredInstances d.readinessTimeout now rs) = 100 ∧
        result.releases = p.spread d.desiredInstances d.readinessTimeout now rs ∧
        (∀ (i : Nat) (before after : Release), rs[i]? = some before →
          result.releases[i]? = some after → (after.spec.role = .bad ↔ before.spec.role = .bad)) ∧
        ∃ i before, targetIndex result.releases = some i ∧ rs[i]? = some before ∧
          before.spec.role ≠ .bad ∧
          (before.status.state = .failed → before.spec.role = .active)) ∧
    ∀ (s : Rollout) (es : List Rollout.Event), Balanced s.releases → s.Permits es →
      Balanced (s.run es).releases := by
  refine ⟨fun d rs now moves => ?_, fun s es balanced permits => ?_⟩
  · obtain ⟨p, planned, passed⟩ := moves.exists_plan
    have sound := planOf?_sound planned
    have releases : (p.carryOut d rs now).releases =
        p.spread d.desiredInstances d.readinessTimeout now rs := releases_carryOut sound
    obtain ⟨target, targetAt, targetNotBad, targetFailed⟩ := planOf?_target_spec planned
    obtain ⟨active, activeAt, activeNotBad⟩ := planOf?_active_spec planned
    refine ⟨p, _, planned, passed, ?_, totalTraffic_spread sound, releases, ?_, p.target, target,
      ?_, targetAt, targetNotBad, targetFailed⟩
    · rw [releases]
      exact balanced_spread sound
    · intro i before after at_ h
      rw [releases] at h
      refine bad_spread_iff at_ h ?_ ?_
      · rintro rfl
        cases at_.symm.trans activeAt
        exact activeNotBad
      · rintro rfl
        cases at_.symm.trans targetAt
        exact targetNotBad
    · rw [releases]
      exact targetIndex_spread sound
  · exact s.run_induction (P := fun s => Balanced s.releases) balanced_step es permits balanced

namespace Sample

open Cutover.Sample

/-- Two active releases, a target that has all traffic, and a bad release with some. -/
def tangled : List Release :=
  [release "web-4" 40 .bad 30 2, release "web-3" 30 .target 100 1, release "web-2" 20 .active 60 3,
    release "web-1" 10 .active 100 3]

def settled : Rollout := ⟨descriptor 4, [release "web-1" 10 .active 100 4]⟩

/-- A promotion that starts, is held, and moves once the target is available. -/
def promotion : List Rollout.Event :=
  [.add (release "web-2" 20 .none 0 0), .pass 100, .pass 110,
    .observe 0 { (default : ReleaseStatus) with numAvailable := 4 }, .pass 200]

theorem tangled_and_promotion_balanced :
    (Moves (descriptor 4) tangled 1000 ∧
      ∃ result, pass (descriptor 4) tangled 1000 = .ok result ∧ Balanced result.releases) ∧
    Balanced settled.releases ∧ settled.Permits promotion ∧
      Balanced (settled.run promotion).releases := by
  have moves : Moves (descriptor 4) tangled 1000 := ⟨by decide, by decide⟩
  have start : Balanced settled.releases := by decide
  have permits : settled.Permits promotion :=
    ⟨⟨rfl, rfl, rfl⟩, trivial, trivial, trivial, trivial, trivial⟩
  obtain ⟨p, result, -, passed, balanced, -⟩ :=
    balanced_by_pass_and_along_runs.1 (descriptor 4) tangled 1000 moves
  exact ⟨⟨moves, result, passed, balanced⟩, start, permits,
    balanced_by_pass_and_along_runs.2 settled promotion start permits⟩

end Sample

end Cutover.Ramp
