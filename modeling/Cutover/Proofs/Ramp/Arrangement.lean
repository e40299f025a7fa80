/-
# Cutover.Proofs.Ramp.Arrangement -- the order of the releases does not matter

The ramp works with positions: of the first active release, of the first target, of the first of
the newest candidates.  Where names are distinct and at most one release has either role, no
position is the first of several, and a list in another order is met with the same plan at other
positions (`Listed.planOf?_eq`).  A plan reads and writes releases by their positions only, so a
pass commutes with every permutation of the list (`pass_arrange`).

`Listed s xs ys` says that `ys` has at each position what `xs` has at the position that `s` names.
-/
import Cutover.Proofs.Ramp.Drain
import Cutover.Proofs.Release.Recency
import Mathlib.Logic.Equiv.Fin.Basic

namespace Cutover.Ramp

set_option autoImplicit false

open Release

/-! ## Lists in another order -/

section Listed

variable {α β : Type} {s : Equiv.Perm Nat} {xs ys : List α}

/-- One list has at each position what another has at the position that `s` names. -/
def Listed (s : Equiv.Perm Nat) (xs ys : List α) : Prop := ∀ i, ys[i]? = xs[s i]?

namespace Listed

variable (listed : Listed s xs ys)

include listed

theorem getElem?_symm (i : Nat) : ys[s.symm i]? = xs[i]? := by
  rw [listed, s.apply_symm_apply]

theorem mem_iff {x : α} : x ∈ ys ↔ x ∈ xs := by
  rw [List.mem_iff_getElem?, List.mem_iff_getElem?]
  constructor
  · rintro ⟨i, at_⟩
    exact ⟨s i, (listed i).symm.trans at_⟩
  · rintro ⟨i, at_⟩
    exact ⟨s.symm i, (listed.getElem?_symm i).trans at_⟩

theorem isEmpty_eq : ys.isEmpty = xs.isEmpty := by
  rw [Bool.eq_iff_iff, List.isEmpty_iff, List.isEmpty_iff, List.eq_nil_iff_forall_not_mem,
    List.eq_nil_iff_forall_not_mem]
  exact forall_congr' fun x => not_congr listed.mem_iff

theorem any_eq (q : α → Bool) : ys.any q = xs.any q := by
  rw [Bool.eq_iff_iff, List.any_eq_true, List.any_eq_true]
  exact exists_congr fun x => and_congr_left fun _ => listed.mem_iff

theorem mapIdx {f g : Nat → α → β} (same : ∀ i x, g i x = f (s i) x) :
    Listed s (xs.mapIdx f) (ys.mapIdx g) := by
  intro i
  rw [List.getElem?_mapIdx, List.getElem?_mapIdx, listed, funext (same i)]

/-- What stands at one position at most is found wherever it is listed. -/
theorem findIdx?_eq {q : α → Bool} (one : xs.countP q ≤ 1) :
    ys.findIdx? q = (xs.findIdx? q).map s.symm := by
  cases found : xs.findIdx? q with
  | none =>
      have none_ := List.findIdx?_eq_none_iff.1 found
      exact List.findIdx?_eq_none_iff.2 fun x inside => none_ x (listed.mem_iff.1 inside)
  | some a =>
      obtain ⟨lt, holds, -⟩ := List.findIdx?_eq_some_iff_getElem.1 found
      have here := (listed.getElem?_symm a).trans (List.getElem?_eq_getElem lt)
      obtain ⟨lt', at'⟩ := List.getElem?_eq_some_iff.1 here
      refine List.findIdx?_eq_some_iff_getElem.2 ⟨lt', at' ▸ holds, fun j before holds' => ?_⟩
      have there := (listed j).symm.trans (List.getElem?_eq_getElem (Nat.lt_trans before lt'))
      have same : a = s j := index_unique one (List.getElem?_eq_getElem lt) there holds holds'
      rw [same, s.symm_apply_apply] at before
      exact Nat.lt_irrefl _ before

end Listed

/-- The entries of a list in another order. -/
def arrange {n : Nat} (σ : Equiv.Perm (Fin n)) (xs : List α) : List α :=
  (List.finRange n).filterMap fun i => xs[(σ i).val]?

/-- A permutation of the first positions, on all. -/
def positions {n : Nat} (σ : Equiv.Perm (Fin n)) : Equiv.Perm Nat :=
  σ.extendDomain Fin.equivSubtype

theorem listed_arrange {n : Nat} (σ : Equiv.Perm (Fin n)) (length : xs.length = n) :
    Listed (positions σ) xs (arrange σ xs) := by
  subst length
  intro i
  have all : arrange σ xs = (List.finRange xs.length).map fun i => xs[σ i] := by
    simp [arrange]
  rw [all]
  by_cases lt : i < xs.length
  · have image : positions σ i = σ ⟨i, lt⟩ :=
      Equiv.Perm.extendDomain_apply_image σ Fin.equivSubtype ⟨i, lt⟩
    simp [image, lt]
  · have image : positions σ i = i :=
      Equiv.Perm.extendDomain_apply_not_subtype σ Fin.equivSubtype lt
    simp [image, lt]

theorem arrange_eq {n : Nat} {σ : Equiv.Perm (Fin n)} (length : xs.length = n)
    (listed : Listed (positions σ) xs ys) : arrange σ xs = ys := by
  apply List.ext_getElem?
  intro i
  rw [listed, listed_arrange σ length]

end Listed

variable {d : Descriptor} {rs ys : List Release} {now : Nat} {p : Plan} {s : Equiv.Perm Nat}

/-! ## The plan for a list in another order -/

/-- A plan with its positions replaced. -/
def Plan.relocate (f : Nat → Nat) (p : Plan) : Plan :=
  { p with active := f p.active, target := f p.target }

theorem plan_relocate {f : Nat → Nat} (injective : Function.Injective f)
    (active? target? : Option Nat) (c : Nat) (r : Release) :
    plan d (active?.map f) (target?.map f) (f c) r = (plan d active? target? c r).relocate f := by
  have active : (active?.map f).getD (f c) = f (active?.getD c) := by
    cases active? <;> rfl
  have absent : (active?.map f = none) = (active? = none) := by
    rw [Option.map_eq_none_iff]
  have switched : (target?.map f != some (f c)) = (target? != some c) := by
    cases target? <;> simp [bne, injective.eq_iff]
  unfold plan
  simp only [active, absent, switched, injective.eq_iff]
  split
  · rfl
  · split
    · rfl
    · unfold Plan.relocate
      split <;> rfl

theorem assign_relocate (p : Plan) (desired timeout now i : Nat) (r : Release) :
    (p.relocate s.symm).assign desired timeout now i r = p.assign desired timeout now (s i) r := by
  simp only [Plan.assign, Plan.relocate, Equiv.eq_symm_apply]

theorem mark_relocate (p : Plan) (i : Nat) (r : Release) :
    (p.relocate s.symm).mark i r = p.mark (s i) r := by
  simp only [Plan.mark, Plan.relocate, Equiv.eq_symm_apply, ne_eq, Equiv.apply_symm_apply]

theorem isWaiting_relocate (p : Plan) (timeout now i : Nat) (r : Release) :
    (p.relocate s.symm).isWaiting timeout now i r = p.isWaiting timeout now (s i) r := by
  simp only [Plan.isWaiting, Plan.relocate, bne, Bool.beq_eq_decide_eq, Equiv.eq_symm_apply]

/-- Names are distinct, and at most one release has either role. -/
structure Distinct (rs : List Release) : Prop where
  names : (rs.map (·.name)).Nodup
  one_active : rs.countP (·.spec.role = .active) ≤ 1
  one_target : rs.countP (·.spec.role = .target) ≤ 1

namespace Listed

section Selection

variable (listed : Listed s rs ys) (distinct : Distinct rs)

include listed distinct

theorem activeIndex_eq : activeIndex ys = (activeIndex rs).map s.symm :=
  listed.findIdx?_eq distinct.one_active

theorem targetIndex_eq : targetIndex ys = (targetIndex rs).map s.symm := by
  unfold targetIndex
  rw [listed.activeIndex_eq distinct, listed.findIdx?_eq distinct.one_target]
  cases rs.findIdx? (·.spec.role = .target) <;> rfl

theorem hold?_eq : hold? d ys now = hold? d rs now := by
  have promoting : isPromoting ys = isPromoting rs := by
    unfold isPromoting
    rw [listed.activeIndex_eq distinct, listed.targetIndex_eq distinct]
    cases activeIndex rs <;> cases targetIndex rs <;> simp [bne]
  unfold hold?
  rw [promoting]

/-- Two releases of different names are never of the same recency, so the candidate is the same
release in any order. -/
theorem firstDeployable_eq : firstDeployable ys = (firstDeployable rs).map s.symm := by
  cases found : firstDeployable rs with
  | none =>
      have isSome : (firstDeployable ys).isSome ↔ (firstDeployable rs).isSome := by
        rw [firstDeployable_isSome_iff, firstDeployable_isSome_iff]
        exact exists_congr fun r => and_congr_left fun _ => listed.mem_iff
      simpa [found] using isSome
  | some c =>
      obtain ⟨r, here, deployable, heads⟩ := firstDeployable_eq_some_iff.1 found
      refine firstDeployable_eq_some_iff.2
        ⟨r, (listed.getElem?_symm c).trans here, deployable, fun i o at_ may => ?_⟩
      have there : rs[s i]? = some o := (listed i).symm.trans at_
      have notNewer := (heads (s i) o there may).1
      refine ⟨notNewer, fun before => (isNewer_or_name_eq notNewer).resolve_right fun name => ?_⟩
      have lt : c < (rs.map (·.name)).length := by
        rw [List.length_map]
        exact (List.getElem?_eq_some_iff.1 here).1
      have same : c = s i := by
        refine (List.getElem?_inj lt distinct.names).1 ?_
        rw [List.getElem?_map, List.getElem?_map, here, there]
        exact congrArg some name.symm
      rw [same, s.symm_apply_apply] at before
      exact Nat.lt_irrefl _ before

theorem planOf?_eq : planOf? d ys = (planOf? d rs).map (·.relocate s.symm) := by
  unfold planOf?
  rw [listed.firstDeployable_eq distinct, listed.activeIndex_eq distinct,
    listed.targetIndex_eq distinct]
  cases firstDeployable rs with
  | none => rfl
  | some c =>
      simp only [Option.map_some, Option.bind_eq_bind, Option.bind_some, listed.getElem?_symm]
      cases rs[c]? with
      | none => rfl
      | some r => exact congrArg some (plan_relocate s.symm.injective _ _ c r)

end Selection

/-! ## The pass over a list in another order -/

variable (listed : Listed s rs ys)

include listed

theorem spread {desired timeout : Nat} : Listed s (p.spread desired timeout now rs)
    ((p.relocate s.symm).spread desired timeout now ys) := by
  apply listed.mapIdx
  intro i r
  rw [assign_relocate, mark_relocate]

theorem report_eq : (p.relocate s.symm).report d ys now = p.report d rs now := by
  unfold Plan.report Plan.relocate
  simp only [listed.getElem?_symm]
  cases rs[p.active]? with
  | none => simp
  | some r => simp

theorem waiting_eq (timeout : Nat) :
    (ys.mapIdx ((p.relocate s.symm).isWaiting timeout now)).any id =
      (rs.mapIdx (p.isWaiting timeout now)).any id :=
  (listed.mapIdx fun i r => isWaiting_relocate p timeout now i r).any_eq id

end Listed

/-- The result with its releases in another order. -/
def Result.arrange {n : Nat} (σ : Equiv.Perm (Fin n)) (result : Result) : Result :=
  { result with releases := Ramp.arrange σ result.releases }

theorem carryOut_arrange {σ : Equiv.Perm (Fin rs.length)} (distinct : Distinct rs)
    (planned : planOf? d rs = some p) :
    (p.relocate (positions σ).symm).carryOut d (arrange σ rs) now =
      (p.carryOut d rs now).arrange σ := by
  have listed : Listed (positions σ) rs (arrange σ rs) := listed_arrange σ rfl
  have planned' : planOf? d (arrange σ rs) = some (p.relocate (positions σ).symm) := by
    rw [listed.planOf?_eq distinct, planned]
    rfl
  -- the split needs no correction in either order
  have settled : Listed (positions σ) (p.carryOut d rs now).releases
      ((p.relocate (positions σ).symm).carryOut d (arrange σ rs) now).releases := by
    rw [releases_carryOut (planOf?_sound planned), releases_carryOut (planOf?_sound planned')]
    exact listed.spread
  have length : (p.carryOut d rs now).releases.length = rs.length := by
    rw [releases_carryOut (planOf?_sound planned), length_spread]
  have releases : ((p.relocate (positions σ).symm).carryOut d (arrange σ rs) now).releases =
      arrange σ (p.carryOut d rs now).releases := (arrange_eq length settled).symm
  have descriptor : ((p.relocate (positions σ).symm).carryOut d (arrange σ rs) now).descriptor =
      (p.carryOut d rs now).descriptor := by
    rw [descriptor_carryOut, descriptor_carryOut, settled.report_eq]
  have outcome : ((p.relocate (positions σ).symm).carryOut d (arrange σ rs) now).outcome =
      (p.carryOut d rs now).outcome := by
    unfold Plan.carryOut
    simp only [listed.waiting_eq]
    rfl
  rw [Result.arrange, ← outcome, ← descriptor, ← releases]

/-- **The order of the releases does not matter.**  A pass over releases of distinct names, at most
one of them active and at most one a target, gives for every permutation of the list the same
outcome and descriptor, or the same error, and its releases in the same permutation. -/
theorem pass_arrange (distinct : Distinct rs) (d : Descriptor) (now : Nat)
    (σ : Equiv.Perm (Fin rs.length)) :
    pass d (arrange σ rs) now = (pass d rs now).map (·.arrange σ) := by
  have listed : Listed (positions σ) rs (arrange σ rs) := listed_arrange σ rfl
  rw [pass_eq, pass_eq, listed.isEmpty_eq, listed.hold?_eq distinct, listed.planOf?_eq distinct]
  split
  · rfl
  · cases hold? d rs now with
    | some remaining => rfl
    | none =>
        cases planned : planOf? d rs with
        | none => rfl
        | some p => exact congrArg Except.ok (carryOut_arrange distinct planned)

namespace Sample

open Cutover.Sample

/-- Two releases of one date, newer than the active one. -/
def twins : List Release :=
  [release "web-1" 10 .active 100 4, release "web-2" 20 .none 0 0, release "web-3" 20 .none 0 0]

def exchange : Equiv.Perm (Fin twins.length) := Equiv.swap ⟨1, by decide⟩ ⟨2, by decide⟩

/-- The name decides which of the two becomes the target, and not the order. -/
theorem twins_exchanged :
    Distinct twins ∧ (arrange exchange twins).map (·.name) = ["web-1", "web-3", "web-2"] ∧
      ∃ result result', pass (descriptor 4) twins 1000 = .ok result ∧
        pass (descriptor 4) (arrange exchange twins) 1000 = .ok result' ∧
        result'.outcome = result.outcome ∧ result'.descriptor.status = result.descriptor.status ∧
        result.releases.map (·.spec.role) = [.active, .none, .target] ∧
        result'.releases.map (·.spec.role) = [.active, .target, .none] := by
  have distinct : Distinct twins := ⟨by decide, by decide, by decide⟩
  have passed := pass_arrange distinct (descriptor 4) 1000 exchange
  exact ⟨distinct, by decide, _, _, rfl, passed, rfl, rfl, by decide, by decide⟩

end Sample

end Cutover.Ramp
