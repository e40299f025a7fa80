/-
# Cutover.Proofs.Ramp.Step -- what one pass of the ramp does

`pass_eq` opens a pass once: it fails on no releases, is held by the cooldown, finds
no candidate, or carries out the plan of its candidate (`planOf?`, `Plan.carryOut`).
Nothing after this module unfolds `pass` or `plan`.

A plan that `planOf?` gives is `Plan.Sound`: its positions are positions of the list,
and the target has all traffic exactly when it is the active release.  What a plan
does to a list is said position by position (`spread_getElem?`, `role_assign`,
`traffic_assign`), and a sound plan's split needs no correction (`settle_eq_spread`).
-/
import Cutover.Release.Ramp
import Mathlib.Algebra.GroupWithZero.Nat

namespace Cutover

set_option autoImplicit false

/-! ## The candidate -/

namespace Release

theorem newest_mem {xs : List (Release × Nat)} {x : Release × Nat} (h : newest xs = some x) :
    x ∈ xs := by
  induction xs generalizing x with
  | nil => simp [newest] at h
  | cons y rest ih =>
      simp only [newest] at h
      split at h
      · cases h; exact List.mem_cons_self
      · rename_i z found
        split at h
        · cases h; exact List.mem_cons_of_mem _ (ih found)
        · cases h; exact List.mem_cons_self

theorem newest_isSome {xs : List (Release × Nat)} (ne : xs ≠ []) : (newest xs).isSome := by
  cases xs with
  | nil => exact absurd rfl ne
  | cons y rest =>
      simp only [newest]
      split
      · rfl
      · split <;> rfl

/-- The candidate stands at its position and may be given traffic. -/
theorem firstDeployable_spec {rs : List Release} {c : Nat} (h : firstDeployable rs = some c) :
    ∃ r, rs[c]? = some r ∧ isDeployable r = true := by
  obtain ⟨⟨r, i⟩, found, rfl⟩ := Option.map_eq_some_iff.1 h
  obtain ⟨member, deployable⟩ := List.mem_filter.1 (newest_mem found)
  exact ⟨r, List.mem_zipIdx_iff_getElem?.1 member, deployable⟩

/-- There is a candidate as soon as some release may be given traffic. -/
theorem firstDeployable_isSome {rs : List Release} {i : Nat} {r : Release} (at_ : rs[i]? = some r)
    (deployable : isDeployable r = true) : (firstDeployable rs).isSome := by
  have member : (r, i) ∈ rs.zipIdx.filter fun x => isDeployable x.1 :=
    List.mem_filter.2 ⟨List.mem_zipIdx_iff_getElem?.2 at_, deployable⟩
  simpa [firstDeployable] using newest_isSome (List.ne_nil_of_mem member)

theorem isDeployable_of_active {r : Release} (active : r.spec.role = .active) :
    isDeployable r = true := by simp [isDeployable, active]

end Release

namespace Ramp

variable {d : Descriptor} {rs : List Release} {now : Nat} {p : Plan}

/-! ## Positions of the roles -/

theorem activeIndex_spec {a : Nat} (h : activeIndex rs = some a) :
    ∃ r, rs[a]? = some r ∧ r.spec.role = .active := by
  obtain ⟨lt, active, -⟩ := List.findIdx?_eq_some_iff_getElem.1 h
  exact ⟨rs[a], List.getElem?_eq_getElem lt, by simpa using active⟩

theorem activeIndex_isSome {i : Nat} {r : Release} (at_ : rs[i]? = some r)
    (active : r.spec.role = .active) : (activeIndex rs).isSome := by
  rw [activeIndex, List.findIdx?_isSome, List.any_eq_true]
  exact ⟨r, List.mem_of_getElem? at_, by simpa using active⟩

theorem targetIndex_spec {c : Nat} (found : targetIndex rs = some c) :
    activeIndex rs = some c ∨ ∃ r, rs[c]? = some r ∧ r.spec.role = .target := by
  unfold targetIndex at found
  cases only : rs.findIdx? (·.spec.role = .target) with
  | none =>
      rw [only] at found
      exact .inl found
  | some t =>
      rw [only] at found
      obtain rfl : t = c := Option.some.inj found
      obtain ⟨lt, role, -⟩ := List.findIdx?_eq_some_iff_getElem.1 only
      exact .inr ⟨rs[t], List.getElem?_eq_getElem lt, of_decide_eq_true role⟩

/-- A target that is not the active release has the role of one. -/
theorem isTarget_of_targetIndex {a c : Nat} {r : Release} (active : activeIndex rs = some a)
    (target : targetIndex rs = some c) (ne : a ≠ c) (at_ : rs[c]? = some r) :
    r.spec.role = .target := by
  rcases targetIndex_spec target with isActive | ⟨x, here, isTarget⟩
  · exact absurd (Option.some.inj (active.symm.trans isActive)) ne
  · exact Option.some.inj (at_.symm.trans here) ▸ isTarget

theorem isPromoting_of_mem {active target : Release} (inside : active ∈ rs)
    (isActive : active.spec.role = .active) (inside' : target ∈ rs)
    (isTarget : target.spec.role = .target) : isPromoting rs = true := by
  obtain ⟨i, at_⟩ := List.getElem?_of_mem inside
  obtain ⟨a, found⟩ := Option.isSome_iff_exists.1 (activeIndex_isSome at_ isActive)
  have some_ : (rs.findIdx? (·.spec.role = .target)).isSome := by
    rw [List.findIdx?_isSome, List.any_eq_true]
    exact ⟨target, inside', by simpa using isTarget⟩
  obtain ⟨t, found'⟩ := Option.isSome_iff_exists.1 some_
  have ne : a ≠ t := by
    rintro rfl
    obtain ⟨r, here, role⟩ := activeIndex_spec found
    obtain ⟨lt, role', -⟩ := List.findIdx?_eq_some_iff_getElem.1 found'
    rw [List.getElem?_eq_getElem lt] at here
    cases here
    simp [role] at role'
  unfold isPromoting targetIndex
  rw [found, found']
  simpa using ne

/-! ## A pass, opened once -/

/-- What a pass is going to do, if some release may be given traffic. -/
def planOf? (d : Descriptor) (rs : List Release) : Option Plan := do
  let candidate ← Release.firstDeployable rs
  let r ← rs[candidate]?
  return plan d (activeIndex rs) (targetIndex rs) candidate r

/-- The result of a pass that moves. -/
def Plan.carryOut (p : Plan) (d : Descriptor) (rs : List Release) (now : Nat) : Result :=
  let timeout := d.readinessTimeout
  let settled := p.settle d.desiredInstances timeout now rs
  let waiting := (rs.mapIdx (p.isWaiting timeout now)).any id
  { outcome := ⟨if p.again || waiting then some timeout else none, p.changed⟩
    descriptor := { d with status := p.report d settled now }
    releases := settled }

theorem pass_eq (d : Descriptor) (rs : List Release) (now : Nat) :
    pass d rs now =
      if rs.isEmpty then .error (.emptyReleaseSet d.key)
      else match hold? d rs now, planOf? d rs with
        | some remaining, _ => .ok ⟨⟨some remaining, false⟩, d, rs⟩
        | none, none => .ok ⟨default, d, rs⟩
        | none, some p => .ok (p.carryOut d rs now) := by
  unfold pass planOf?
  split
  · rfl
  · cases hold? d rs now with
    | some remaining => rfl
    | none =>
        cases found : Release.firstDeployable rs with
        | none => rfl
        | some c =>
            obtain ⟨r, at_, -⟩ := Release.firstDeployable_spec found
            simp only [at_, Option.bind_eq_bind, Option.bind_some]
            rfl

theorem hold?_eq_some_iff {remaining : Nat} : hold? d rs now = some remaining ↔
    isPromoting rs = true ∧ now - d.status.deployUpdatedAt < d.readinessTimeout ∧
      d.readinessTimeout - (now - d.status.deployUpdatedAt) = remaining := by
  unfold hold?
  simp only [Option.ite_none_right_eq_some, Bool.and_eq_true, decide_eq_true_eq, Option.some.injEq,
    and_assoc]

theorem pass_of_held (nonempty : rs ≠ []) {remaining : Nat}
    (held : hold? d rs now = some remaining) :
    pass d rs now = .ok ⟨⟨some remaining, false⟩, d, rs⟩ := by
  have notEmpty : rs.isEmpty = false := by simpa using nonempty
  simp [pass_eq, notEmpty, held]

/-- A pass moves: it is past the cooldown and has a candidate. -/
def Moves (d : Descriptor) (rs : List Release) (now : Nat) : Prop :=
  hold? d rs now = none ∧ (Release.firstDeployable rs).isSome

/-- A promotion rests for a readiness timeout. -/
theorem not_moves_of_promoting (promoting : isPromoting rs = true)
    (soon : now - d.status.deployUpdatedAt < d.readinessTimeout) : ¬ Moves d rs now := by
  rintro ⟨free, -⟩
  rw [hold?_eq_some_iff.2 ⟨promoting, soon, rfl⟩] at free
  cases free

theorem planOf?_isSome : (planOf? d rs).isSome = (Release.firstDeployable rs).isSome := by
  unfold planOf?
  cases found : Release.firstDeployable rs with
  | none => rfl
  | some c =>
      obtain ⟨r, at_, -⟩ := Release.firstDeployable_spec found
      simp [at_]

theorem ne_nil_of_planOf? (h : planOf? d rs = some p) : rs ≠ [] := by
  rintro rfl
  simp [planOf?, Release.firstDeployable, Release.newest] at h

theorem pass_of_planOf? (free : hold? d rs now = none) (h : planOf? d rs = some p) :
    pass d rs now = .ok (p.carryOut d rs now) := by
  have : rs.isEmpty = false := by simpa using ne_nil_of_planOf? h
  simp [pass_eq, this, free, h]

theorem Moves.exists_plan (moves : Moves d rs now) :
    ∃ p, planOf? d rs = some p ∧ pass d rs now = .ok (p.carryOut d rs now) := by
  obtain ⟨p, h⟩ := Option.isSome_iff_exists.1 (planOf?_isSome.trans moves.2)
  exact ⟨p, h, pass_of_planOf? moves.1 h⟩

/-- A pass that does not move leaves descriptor and releases alone. -/
theorem pass_of_not_moves (ne : rs ≠ []) (still : ¬ Moves d rs now) :
    ∃ outcome, pass d rs now = .ok ⟨outcome, d, rs⟩ := by
  have notEmpty : rs.isEmpty = false := by simpa using ne
  simp only [pass_eq, notEmpty]
  cases held : hold? d rs now with
  | some remaining => exact ⟨_, rfl⟩
  | none =>
      cases found : planOf? d rs with
      | none => exact ⟨_, rfl⟩
      | some p =>
          have : (Release.firstDeployable rs).isSome := by
            rw [← planOf?_isSome (d := d), found]
            rfl
          exact absurd ⟨held, this⟩ still

/-- A pass over some releases succeeds.  It leaves descriptor and releases alone, or it is free and
carries out a plan. -/
theorem pass_cases (nonempty : rs ≠ []) (d : Descriptor) (now : Nat) :
    ∃ result, pass d rs now = .ok result ∧ (result.descriptor = d ∧ result.releases = rs ∨
      ∃ p, hold? d rs now = none ∧ planOf? d rs = some p ∧ result = p.carryOut d rs now) := by
  by_cases moves : Moves d rs now
  · obtain ⟨p, planned, passed⟩ := moves.exists_plan
    exact ⟨_, passed, .inr ⟨p, moves.1, planned, rfl⟩⟩
  · obtain ⟨outcome, passed⟩ := pass_of_not_moves nonempty moves
    exact ⟨_, passed, .inl ⟨rfl, rfl⟩⟩

/-- A pass fails only on no releases. -/
theorem eq_of_pass_error {e : DeployError} (failed : pass d rs now = .error e) :
    e = .emptyReleaseSet d.key := by
  by_cases nonempty : rs = []
  · subst nonempty
    cases failed
    rfl
  · obtain ⟨result, passed, -⟩ := pass_cases nonempty d now
    rw [passed] at failed
    cases failed

/-! ## The three kinds of plan -/

/-- Whether the candidate was not the target before. -/
def switches (rs : List Release) (c : Nat) : Bool :=
  activeIndex rs = none || targetIndex rs != some c

/-- A plan made for the candidate `r` at position `c`: nothing is wanted, the candidate
is or becomes the active release at once, or it is a step of its promotion over the
release at `a`. -/
inductive Plan.Made (d : Descriptor) (rs : List Release) (c : Nat) (r : Release) : Plan → Prop
  | stopped (zero : d.desiredInstances = 0) :
      Made d rs c r ⟨c, c, 100, 0, false, switches rs c || r.spec.numDesired != 0⟩
  | steady (positive : 0 < d.desiredInstances)
      (own : activeIndex rs = none ∨ activeIndex rs = some c) :
      Made d rs c r ⟨c, c, 100, d.desiredInstances, false, switches rs c⟩
  | ramping {a : Nat} (positive : 0 < d.desiredInstances) (active : activeIndex rs = some a)
      (ne : a ≠ c) {traffic raised : Nat}
      (given : traffic = targetTraffic d d.desiredInstances r.status.numAvailable r.spec.traffic)
      (raise : raised = raisedCount d d.desiredInstances r.status.numAvailable) :
      Made d rs c r
        ⟨if traffic = 100 then c else a, c, traffic, max r.spec.numDesired raised,
          !decide (traffic = 100),
          switches rs c || r.spec.numDesired < raised || traffic != r.spec.traffic ||
            traffic = 100⟩

theorem plan_made (c : Nat) (r : Release) :
    Plan.Made d rs c r (plan d (activeIndex rs) (targetIndex rs) c r) := by
  unfold plan
  simp only
  split
  · rename_i zero
    exact .stopped zero
  · rename_i positive
    have positive : 0 < d.desiredInstances := Nat.pos_of_ne_zero positive
    cases active : activeIndex rs with
    | none =>
        have made := Plan.Made.steady (r := r) (c := c) positive (.inl active)
        simpa [switches, active] using made
    | some a =>
        by_cases same : a = c
        · subst same
          have made := Plan.Made.steady (r := r) (c := a) positive (.inr active)
          simpa [switches, active] using made
        · have made := Plan.Made.ramping positive active same (r := r) rfl rfl
          simpa [switches, active, Ne.symm same, bne] using made

theorem planOf?_made (h : planOf? d rs = some p) :
    ∃ c r, Release.firstDeployable rs = some c ∧ rs[c]? = some r ∧
      Release.isDeployable r = true ∧ Plan.Made d rs c r p := by
  unfold planOf? at h
  cases found : Release.firstDeployable rs with
  | none => simp [found] at h
  | some c =>
      obtain ⟨r, at_, deployable⟩ := Release.firstDeployable_spec found
      simp only [found, at_, Option.bind_eq_bind, Option.bind_some, Option.pure_def,
        Option.some.injEq] at h
      exact ⟨c, r, rfl, at_, deployable, h ▸ plan_made c r⟩

@[simp] theorem Plan.Made.target_eq {c : Nat} {r : Release} (made : Plan.Made d rs c r p) :
    p.target = c := by cases made <;> rfl

/-- A step of a promotion that reports no change had this target before, and gives it the traffic
and the count that it has. -/
theorem Plan.Made.of_unchanged {c : Nat} {r : Release} (made : Plan.Made d rs c r p)
    (ne : p.active ≠ p.target) (unchanged : p.changed = false) :
    activeIndex rs = some p.active ∧ targetIndex rs = some c ∧ p.traffic = r.spec.traffic ∧
      p.count = r.spec.numDesired := by
  cases made with
  | stopped zero => exact absurd rfl ne
  | steady positive own => exact absurd rfl ne
  | @ramping a positive active other traffic raised given raise =>
      simp only [Bool.or_eq_false_iff, decide_eq_false_iff_not, bne_eq_false_iff_eq,
        switches] at unchanged
      obtain ⟨⟨⟨⟨-, target⟩, notRaised⟩, same⟩, part⟩ := unchanged
      refine ⟨?_, target, same, ?_⟩
      · simpa [part] using active
      · exact Nat.max_eq_left (Nat.le_of_not_lt notRaised)

/-! ## Sound plans -/

/-- The positions are positions of the list, and the target has all traffic exactly when
it is the active release. -/
structure Plan.Sound (p : Plan) (rs : List Release) : Prop where
  active_lt : p.active < rs.length
  target_lt : p.target < rs.length
  traffic_le : p.traffic ≤ 100
  whole_iff : p.active = p.target ↔ p.traffic = 100

theorem targetTraffic_le (d : Descriptor) (desired available previous : Nat) :
    targetTraffic d desired available previous ≤ 100 := Nat.min_le_right _ _

theorem Plan.Made.sound {c : Nat} {r : Release} (at_ : rs[c]? = some r)
    (made : Plan.Made d rs c r p) : p.Sound rs := by
  have lt : c < rs.length := (List.getElem?_eq_some_iff.1 at_).1
  cases made with
  | stopped zero => exact ⟨lt, lt, Nat.le_refl _, by simp⟩
  | steady positive own => exact ⟨lt, lt, Nat.le_refl _, by simp⟩
  | @ramping a positive active ne traffic raised given raise =>
      obtain ⟨old, oldAt, -⟩ := activeIndex_spec active
      have altL : a < rs.length := (List.getElem?_eq_some_iff.1 oldAt).1
      refine ⟨?_, lt, given ▸ targetTraffic_le .., ?_⟩
      · show (if traffic = 100 then c else a) < rs.length
        split <;> assumption
      · show (if traffic = 100 then c else a) = c ↔ traffic = 100
        split <;> simp_all

theorem planOf?_sound (h : planOf? d rs = some p) : p.Sound rs := by
  obtain ⟨c, r, -, at_, -, made⟩ := planOf?_made h
  exact made.sound at_

/-! ## What a plan does to the release at one position -/

section Assign

variable (p : Plan) (desired timeout : Nat) (now : Nat) (i : Nat) (r : Release)

@[simp] theorem mark_spec : (p.mark i r).spec = r.spec := rfl

@[simp] theorem mark_status : (p.mark i r).status = r.status := rfl

theorem role_assign : (p.assign desired timeout now i r).spec.role =
    if i = p.active then .active else if i = p.target then .target
    else if r.spec.role = .bad then .bad else .none := by
  unfold Plan.assign
  split
  · split <;> rfl
  · split
    · rfl
    · split
      · assumption
      · rfl

/-- The traffic of a position, whatever release stands there. -/
def Plan.share (p : Plan) (i : Nat) : Nat :=
  if i = p.active then if i = p.target then p.traffic else 100 - p.traffic
  else if i = p.target then p.traffic else 0

theorem traffic_assign : (p.assign desired timeout now i r).spec.traffic = p.share i := by
  unfold Plan.assign Plan.share
  split
  · split <;> rfl
  · split
    · rfl
    · split <;> rfl

/-- The count of a position: the plan's for the target, what is left by its traffic for
an active release that gives way, none or what it was for the others. -/
theorem numDesired_assign : (p.assign desired timeout now i r).spec.numDesired =
    if i = p.target then p.count else if i = p.active then activeCount desired r.spec.traffic
    else if r.spec.role = .bad ∨ isDrained timeout now r then 0 else r.spec.numDesired := by
  unfold Plan.assign
  by_cases active : i = p.active
  · by_cases target : i = p.target
    · rw [if_pos active, if_pos target, if_pos target]
    · rw [if_pos active, if_neg target, if_neg target, if_pos active]
  · by_cases target : i = p.target
    · rw [if_neg active, if_pos target, if_pos target]
    · rw [if_neg active, if_neg target, if_neg target, if_neg active]
      by_cases bad : r.spec.role = .bad
      · rw [if_pos bad, if_pos (.inl bad)]
      · simp [bad]

@[simp] theorem info_assign : (p.assign desired timeout now i r).info = r.info := by
  unfold Plan.assign
  (repeat' split) <;> rfl

@[simp] theorem status_assign : (p.assign desired timeout now i r).status = r.status := by
  unfold Plan.assign
  (repeat' split) <;> rfl

/-- The mark of a promotion after the pass. -/
theorem label?_mark : (p.mark i r).label? Label.promotionTarget =
    if i = p.target ∧ p.target ≠ p.active then some "1" else none := by
  unfold Plan.mark Object.label?
  split <;> simp

end Assign

/-! ## What a plan does to the list -/

/-- The releases as a plan spreads roles, traffic and counts over them, before the
split is corrected. -/
def Plan.spread (p : Plan) (desired timeout now : Nat) (rs : List Release) : List Release :=
  rs.mapIdx fun i r => p.mark i (p.assign desired timeout now i r)

section Spread

variable {desired timeout : Nat}

@[simp] theorem length_spread : (p.spread desired timeout now rs).length = rs.length := by
  simp [Plan.spread]

theorem spread_getElem? (i : Nat) : (p.spread desired timeout now rs)[i]? =
    rs[i]?.map fun r => p.mark i (p.assign desired timeout now i r) := by
  simp [Plan.spread]

theorem getElem?_spread {i : Nat} {r : Release} (at_ : rs[i]? = some r) :
    (p.spread desired timeout now rs)[i]? =
      some (p.mark i (p.assign desired timeout now i r)) := by
  rw [spread_getElem?, at_]
  rfl

/-- The release at a position after the pass comes from the one before it. -/
theorem exists_of_spread_getElem? {i : Nat} {after : Release}
    (h : (p.spread desired timeout now rs)[i]? = some after) :
    ∃ r, rs[i]? = some r ∧ after = p.mark i (p.assign desired timeout now i r) := by
  rw [spread_getElem?] at h
  obtain ⟨r, at_, rfl⟩ := Option.map_eq_some_iff.1 h
  exact ⟨r, at_, rfl⟩

theorem totalTraffic_eq_sum (rs : List Release) :
    totalTraffic rs = (rs.map (·.spec.traffic)).sum := by
  rw [totalTraffic, List.sum_eq_foldl, List.foldl_map]

/-- The traffic of a sound plan's positions, as a part for the active release and one for
the target; they are one position when the target has it all. -/
theorem Plan.Sound.share_eq (sound : p.Sound rs) (i : Nat) :
    p.share i = (if i = p.active then 100 - p.traffic else 0) +
      (if i = p.target then p.traffic else 0) := by
  have whole := sound.whole_iff
  have le := sound.traffic_le
  unfold Plan.share
  split <;> split <;> omega

theorem sum_range_two (n a b x y : Nat) :
    ((List.range n).map fun i => (if i = a then x else 0) + (if i = b then y else 0)).sum =
      (if a < n then x else 0) + (if b < n then y else 0) := by
  induction n with
  | zero => simp
  | succ n ih =>
      simp only [List.range_succ, List.map_append, List.map_cons, List.map_nil, List.sum_append,
        List.sum_cons, List.sum_nil, ih]
      grind

theorem map_traffic_spread : (p.spread desired timeout now rs).map (·.spec.traffic) =
    (List.range rs.length).map p.share := by
  apply List.ext_getElem
  · simp
  · intro i _ _
    simp [Plan.spread, traffic_assign]

/-- The split of a sound plan is whole. -/
theorem totalTraffic_spread (sound : p.Sound rs) :
    totalTraffic (p.spread desired timeout now rs) = 100 := by
  have active := sound.active_lt
  have target := sound.target_lt
  have le := sound.traffic_le
  calc totalTraffic (p.spread desired timeout now rs)
      = ((List.range rs.length).map p.share).sum := by
        rw [totalTraffic_eq_sum, map_traffic_spread]
    _ = (if p.active < rs.length then 100 - p.traffic else 0) +
          (if p.target < rs.length then p.traffic else 0) := by
        rw [← sum_range_two, funext sound.share_eq]
    _ = 100 := by rw [if_pos active, if_pos target]; omega

/-- A sound plan leaves nothing to correct. -/
theorem settle_eq_spread (sound : p.Sound rs) :
    p.settle desired timeout now rs = p.spread desired timeout now rs := by
  show p.absorb (p.spread desired timeout now rs) = _
  unfold Plan.absorb
  simp only [totalTraffic_spread sound, if_true]

theorem releases_carryOut (sound : p.Sound rs) :
    (p.carryOut d rs now).releases = p.spread d.desiredInstances d.readinessTimeout now rs :=
  settle_eq_spread sound

theorem getElem?_carryOut (sound : p.Sound rs) {i : Nat} {r : Release} (at_ : rs[i]? = some r) :
    (p.carryOut d rs now).releases[i]? =
      some (p.mark i (p.assign d.desiredInstances d.readinessTimeout now i r)) := by
  rw [releases_carryOut sound]
  exact getElem?_spread at_

end Spread

/-! ## What a plan reports -/

theorem descriptor_carryOut (p : Plan) (d : Descriptor) (rs : List Release) (now : Nat) :
    (p.carryOut d rs now).descriptor =
      { d with status := p.report d (p.carryOut d rs now).releases now } := rfl

/-- The names and the stamp do not depend on whether the counts are taken over. -/
theorem status_carryOut (p : Plan) :
    (p.carryOut d rs now).descriptor.status.activeRelease =
        ((p.carryOut d rs now).releases[p.active]?.map (·.name)).getD "" ∧
      (p.carryOut d rs now).descriptor.status.targetRelease =
        ((p.carryOut d rs now).releases[p.target]?.map (·.name)).getD "" ∧
      (p.carryOut d rs now).descriptor.status.deployUpdatedAt =
        if p.changed || d.status.deployUpdatedAt = 0 then now else d.status.deployUpdatedAt := by
  unfold Plan.carryOut Plan.report
  simp only
  split
  · split <;> exact ⟨rfl, rfl, rfl⟩
  · exact ⟨rfl, rfl, rfl⟩

theorem activeRelease_carryOut (p : Plan) :
    (p.carryOut d rs now).descriptor.status.activeRelease =
      ((p.carryOut d rs now).releases[p.active]?.map (·.name)).getD "" := (status_carryOut p).1

theorem targetRelease_carryOut (p : Plan) :
    (p.carryOut d rs now).descriptor.status.targetRelease =
      ((p.carryOut d rs now).releases[p.target]?.map (·.name)).getD "" := (status_carryOut p).2.1

theorem deployUpdatedAt_carryOut :
    (p.carryOut d rs now).descriptor.status.deployUpdatedAt =
      if p.changed || d.status.deployUpdatedAt = 0 then now else d.status.deployUpdatedAt :=
  (status_carryOut p).2.2

/-- While it is not the active release that a plan is made for, the descriptor's count is left
alone. -/
theorem numDesired_carryOut (ne : p.active ≠ p.target) :
    (p.carryOut d rs now).descriptor.status.numDesired = d.status.numDesired := by
  unfold Plan.carryOut Plan.report
  simp only [ne, false_and, if_false]
  split <;> rfl

end Ramp
end Cutover
