/-
# Cutover.Proofs.Release.Diagnosis -- which of its troubles an instance is diagnosed with

An instance may have several troubles at once: conditions that keep it from being scheduled,
containers that have ended before for a telling reason or for the generic one, and containers that
wait.  `Explains` says which of them is reported, as rules in the order of their priority, and
`podError?` reports it (`podError?_eq_some_iff`).

The terminations are looked through from the first container on.  The search ends at a telling
one, and the generic one that it holds at the end is the latest it has met (`Searched`, by
induction on the containers).  So of telling terminations the first is reported and of generic
ones the last.
-/
import Cutover.Release.Health
import Mathlib.Data.List.Forall2

namespace Cutover

set_option autoImplicit false

/-! ## First and last -/

section Places

variable {α : Type} {p : α → Prop} {xs : List α} {x y : α}

/-- The first element of a list with a property. -/
def IsFirst (p : α → Prop) (xs : List α) (x : α) : Prop :=
  ∃ before after, xs = before ++ x :: after ∧ p x ∧ ∀ y ∈ before, ¬ p y

/-- The last element of a list with a property. -/
def IsLast (p : α → Prop) (xs : List α) (x : α) : Prop :=
  ∃ before after, xs = before ++ x :: after ∧ p x ∧ ∀ y ∈ after, ¬ p y

theorem isFirst_iff_find? [DecidablePred p] :
    IsFirst p xs x ↔ xs.find? (fun y => decide (p y)) = some x := by
  rw [List.find?_eq_some_iff_append]
  constructor
  · rintro ⟨before, after, same, holds, none_⟩
    exact ⟨decide_eq_true holds, before, after, same, by simpa using none_⟩
  · rintro ⟨holds, before, after, same, none_⟩
    exact ⟨before, after, same, of_decide_eq_true holds, by simpa using none_⟩

theorem isLast_iff_isFirst_reverse : IsLast p xs x ↔ IsFirst p xs.reverse x := by
  constructor
  · rintro ⟨before, after, rfl, holds, none_⟩
    exact ⟨after.reverse, before.reverse, by simp, holds, by simpa using none_⟩
  · rintro ⟨before, after, same, holds, none_⟩
    refine ⟨after.reverse, before.reverse, ?_, holds, by simpa using none_⟩
    rw [← List.reverse_reverse xs, same]
    simp

theorem IsFirst.mem (first : IsFirst p xs x) : x ∈ xs := by
  obtain ⟨before, after, rfl, -⟩ := first
  exact List.mem_append_right _ List.mem_cons_self

theorem IsFirst.holds (first : IsFirst p xs x) : p x := by
  obtain ⟨_, _, -, holds, -⟩ := first
  exact holds

theorem IsFirst.unique (first : IsFirst p xs x) (first' : IsFirst p xs y) : x = y := by
  classical
  exact Option.some.inj ((isFirst_iff_find?.1 first).symm.trans (isFirst_iff_find?.1 first'))

theorem exists_isFirst (some_ : ∃ x ∈ xs, p x) : ∃ x, IsFirst p xs x := by
  classical
  obtain ⟨x, member, holds⟩ := some_
  have found : (xs.find? fun y => decide (p y)).isSome = true :=
    List.find?_isSome.2 ⟨x, member, decide_eq_true holds⟩
  obtain ⟨first, same⟩ := Option.isSome_iff_exists.1 found
  exact ⟨first, isFirst_iff_find?.2 same⟩

theorem isFirst_cons_self (holds : p x) (xs : List α) : IsFirst p (x :: xs) x :=
  ⟨[], xs, rfl, holds, List.forall_mem_nil _⟩

theorem IsFirst.cons (first : IsFirst p xs x) (fails : ¬ p y) : IsFirst p (y :: xs) x := by
  obtain ⟨before, after, rfl, holds, none_⟩ := first
  exact ⟨y :: before, after, rfl, holds, List.forall_mem_cons.2 ⟨fails, none_⟩⟩

theorem IsLast.mem (last : IsLast p xs x) : x ∈ xs :=
  List.mem_reverse.1 (isLast_iff_isFirst_reverse.1 last).mem

theorem IsLast.holds (last : IsLast p xs x) : p x := (isLast_iff_isFirst_reverse.1 last).holds

theorem IsLast.unique (last : IsLast p xs x) (last' : IsLast p xs y) : x = y :=
  (isLast_iff_isFirst_reverse.1 last).unique (isLast_iff_isFirst_reverse.1 last')

theorem exists_isLast (some_ : ∃ x ∈ xs, p x) : ∃ x, IsLast p xs x := by
  obtain ⟨x, member, holds⟩ := some_
  obtain ⟨last, first⟩ := exists_isFirst ⟨x, List.mem_reverse.2 member, holds⟩
  exact ⟨last, isLast_iff_isFirst_reverse.2 first⟩

theorem isLast_cons_self (holds : p x) (none_ : ∀ y ∈ xs, ¬ p y) : IsLast p (x :: xs) x :=
  ⟨[], xs, rfl, holds, none_⟩

theorem IsLast.cons (last : IsLast p xs x) (y : α) : IsLast p (y :: xs) x := by
  obtain ⟨before, after, rfl, holds, none_⟩ := last
  exact ⟨y :: before, after, rfl, holds, none_⟩

end Places

/-! ## Troubles -/

/-- The instance cannot be scheduled, for this condition. -/
def InstanceCondition.Unschedulable (c : InstanceCondition) : Prop :=
  c.reason = Object.unschedulableReason

instance (c : InstanceCondition) : Decidable c.Unschedulable :=
  inferInstanceAs (Decidable (_ = _))

namespace ContainerStatus

/-- The container has ended before, for a reason that says something. -/
def Telling (s : ContainerStatus) : Prop :=
  ∃ t ∈ s.lastTermination, t.reason ≠ Object.genericReason

/-- The container has ended before, for the reason that only says so. -/
def Generic (s : ContainerStatus) : Prop :=
  ∃ t ∈ s.lastTermination, t.reason = Object.genericReason

def Waits (s : ContainerStatus) : Prop := ∃ reason message, s.state = .waiting reason message

instance (s : ContainerStatus) : Decidable s.Telling := inferInstanceAs (Decidable (∃ _ ∈ _, _))

instance (s : ContainerStatus) : Decidable s.Generic := inferInstanceAs (Decidable (∃ _ ∈ _, _))

instance (s : ContainerStatus) : Decidable s.Waits :=
  match state : s.state with
  | .waiting reason message => isTrue ⟨reason, message, state⟩
  | .running => isFalse fun ⟨_, _, waits⟩ => nomatch state.symm.trans waits
  | .terminated _ => isFalse fun ⟨_, _, waits⟩ => nomatch state.symm.trans waits

end ContainerStatus

/-! ## The search through the terminations -/

open ContainerStatus in
/-- How a search through some containers may end that sets out holding `kept`. -/
inductive Searched (xs : List ContainerStatus) (kept : Option Termination) :
    Except Termination (Option Termination) → Prop
  | telling {s : ContainerStatus} {t : Termination} (first : IsFirst Telling xs s)
      (ended : s.lastTermination = some t) : Searched xs kept (.error t)
  | generic {s : ContainerStatus} {t : Termination} (untold : ∀ x ∈ xs, ¬ x.Telling)
      (last : IsLast Generic xs s) (ended : s.lastTermination = some t) :
      Searched xs kept (.ok (some t))
  | nothing (untold : ∀ x ∈ xs, ¬ x.Telling) (none_ : ∀ x ∈ xs, ¬ x.Generic) :
      Searched xs kept (.ok kept)

namespace Searched

variable {xs : List ContainerStatus} {s : ContainerStatus} {t : Termination}
  {kept : Option Termination} {answer : Except Termination (Option Termination)}

/-- A container that has not ended before makes no difference. -/
theorem cons_of_none (searched : Searched xs kept answer) (ended : s.lastTermination = none) :
    Searched (s :: xs) kept answer := by
  have untelling : ¬ s.Telling := by simp [ContainerStatus.Telling, ended]
  have ungeneric : ¬ s.Generic := by simp [ContainerStatus.Generic, ended]
  cases searched with
  | telling first ended => exact .telling (first.cons untelling) ended
  | generic untold last ended =>
      exact .generic (List.forall_mem_cons.2 ⟨untelling, untold⟩) (last.cons s) ended
  | nothing untold none_ =>
      exact .nothing (List.forall_mem_cons.2 ⟨untelling, untold⟩)
        (List.forall_mem_cons.2 ⟨ungeneric, none_⟩)

/-- A generic termination takes the place of what was held. -/
theorem cons_of_generic (searched : Searched xs (some t) answer)
    (ended : s.lastTermination = some t) (generic : t.reason = Object.genericReason) :
    Searched (s :: xs) kept answer := by
  have untelling : ¬ s.Telling := by simp [ContainerStatus.Telling, ended, generic]
  cases searched with
  | telling first ended => exact .telling (first.cons untelling) ended
  | generic untold last ended =>
      exact .generic (List.forall_mem_cons.2 ⟨untelling, untold⟩) (last.cons s) ended
  | nothing untold none_ =>
      exact .generic (List.forall_mem_cons.2 ⟨untelling, untold⟩)
        (isLast_cons_self ⟨t, ended, generic⟩ none_) ended

end Searched

theorem searched (xs : List ContainerStatus) (kept : Option Termination) :
    Searched xs kept (xs.foldlM Object.weigh kept) := by
  induction xs generalizing kept with
  | nil => exact .nothing (List.forall_mem_nil _) (List.forall_mem_nil _)
  | cons s xs ih =>
      rw [List.foldlM_cons]
      unfold Object.weigh
      cases ended : s.lastTermination with
      | none => exact (ih kept).cons_of_none ended
      | some t =>
          by_cases generic : t.reason = Object.genericReason
          · simp only [generic, if_true]
            exact (ih (some t)).cons_of_generic ended generic
          · simp only [generic, if_false]
            exact .telling (isFirst_cons_self ⟨t, ended, generic⟩ xs) ended

/-! ## Explanations -/

namespace Object

open ContainerStatus InstanceCondition

variable {i : Instance} {e : PodError}

/-- What explains that an instance is unhealthy.  Each rule asks that those before it do not
apply. -/
inductive Explains (i : Instance) : PodError → Prop
  | unschedulable {c : InstanceCondition}
      (first : IsFirst Unschedulable i.status.conditions c) :
      Explains i (i.errorOf c.reason c.message)
  | telling {s : ContainerStatus} {t : Termination}
      (schedulable : ∀ c ∈ i.status.conditions, ¬ c.Unschedulable)
      (first : IsFirst Telling i.status.containerStatuses s)
      (ended : s.lastTermination = some t) : Explains i (i.errorOf t.reason t.message)
  | waiting {s : ContainerStatus} {reason message : String}
      (schedulable : ∀ c ∈ i.status.conditions, ¬ c.Unschedulable)
      (untold : ∀ s ∈ i.status.containerStatuses, ¬ s.Telling)
      (first : IsFirst Waits i.status.containerStatuses s)
      (state : s.state = .waiting reason message) : Explains i (i.errorOf reason message)
  | generic {s : ContainerStatus} {t : Termination}
      (schedulable : ∀ c ∈ i.status.conditions, ¬ c.Unschedulable)
      (untold : ∀ s ∈ i.status.containerStatuses, ¬ s.Telling)
      (ready : ∀ s ∈ i.status.containerStatuses, ¬ s.Waits)
      (last : IsLast Generic i.status.containerStatuses s)
      (ended : s.lastTermination = some t) : Explains i (i.errorOf t.reason t.message)

/-- There is something to report of the instance. -/
def Troubled (i : Instance) : Prop :=
  (∃ c ∈ i.status.conditions, c.Unschedulable) ∨
    ∃ s ∈ i.status.containerStatuses, s.Telling ∨ s.Waits ∨ s.Generic

instance (i : Instance) : Decidable i.Troubled := inferInstanceAs (Decidable (_ ∨ _))

theorem Explains.troubled (explains : i.Explains e) : i.Troubled := by
  cases explains with
  | unschedulable first => exact .inl ⟨_, first.mem, first.holds⟩
  | telling _ first _ => exact .inr ⟨_, first.mem, .inl first.holds⟩
  | waiting _ _ first _ => exact .inr ⟨_, first.mem, .inr (.inl first.holds)⟩
  | generic _ _ _ last _ => exact .inr ⟨_, last.mem, .inr (.inr last.holds)⟩

theorem exists_explains (troubled : i.Troubled) : ∃ e, i.Explains e := by
  by_cases unschedulable : ∃ c ∈ i.status.conditions, c.Unschedulable
  · obtain ⟨c, first⟩ := exists_isFirst unschedulable
    exact ⟨_, .unschedulable first⟩
  have trouble := troubled.resolve_left unschedulable
  push Not at unschedulable
  by_cases telling : ∃ s ∈ i.status.containerStatuses, s.Telling
  · obtain ⟨s, first⟩ := exists_isFirst telling
    obtain ⟨t, ended, -⟩ := first.holds
    exact ⟨_, .telling unschedulable first ended⟩
  push Not at telling
  by_cases waiting : ∃ s ∈ i.status.containerStatuses, s.Waits
  · obtain ⟨s, first⟩ := exists_isFirst waiting
    obtain ⟨reason, message, state⟩ := first.holds
    exact ⟨_, .waiting unschedulable telling first state⟩
  push Not at waiting
  obtain ⟨s, member, cause⟩ := trouble
  have generic : s.Generic :=
    (cause.resolve_left (telling s member)).resolve_left (waiting s member)
  obtain ⟨s, last⟩ := exists_isLast ⟨s, member, generic⟩
  obtain ⟨t, ended, -⟩ := last.holds
  exact ⟨_, .generic unschedulable telling waiting last ended⟩

/-! ## Reports -/

theorem find?_unschedulable_eq_some {c : InstanceCondition}
    (first : IsFirst Unschedulable i.status.conditions c) :
    (i.status.conditions.find? fun c => c.reason = unschedulableReason) = some c :=
  isFirst_iff_find?.1 first

theorem find?_unschedulable_eq_none (schedulable : ∀ c ∈ i.status.conditions, ¬ c.Unschedulable) :
    (i.status.conditions.find? fun c => c.reason = unschedulableReason) = none :=
  List.find?_eq_none.2 fun c member holds => schedulable c member (of_decide_eq_true holds)

theorem waitingReason?_eq_none (ready : ∀ s ∈ i.status.containerStatuses, ¬ s.Waits) :
    i.waitingReason? = none := by
  refine List.findSome?_eq_none_iff.2 fun s member => ?_
  cases state : s.state with
  | waiting reason message => exact absurd ⟨reason, message, state⟩ (ready s member)
  | running => rfl
  | terminated t => rfl

theorem waitingReason?_eq_some {s : ContainerStatus} {reason message : String}
    (first : IsFirst Waits i.status.containerStatuses s)
    (state : s.state = .waiting reason message) : i.waitingReason? = some (reason, message) := by
  obtain ⟨before, after, same, -, none_⟩ := first
  refine List.findSome?_eq_some_iff.2 ⟨before, s, after, same, by rw [state], fun x member => ?_⟩
  cases other : x.state with
  | waiting reason message => exact absurd ⟨reason, message, other⟩ (none_ x member)
  | running => rfl
  | terminated t => rfl

/-- An explanation is reported. -/
theorem Explains.reported (explains : i.Explains e) : i.podError? = some e := by
  have search : Searched i.status.containerStatuses none i.searchTerminations := searched ..
  unfold podError?
  cases explains with
  | unschedulable first =>
      rw [find?_unschedulable_eq_some first]
  | telling schedulable first ended =>
      rw [find?_unschedulable_eq_none schedulable]
      generalize i.searchTerminations = answer at search ⊢
      cases search with
      | telling first' ended' =>
          obtain rfl := first.unique first'
          obtain rfl := Option.some.inj (ended.symm.trans ended')
          rfl
      | generic untold => exact absurd first.holds (untold _ first.mem)
      | nothing untold => exact absurd first.holds (untold _ first.mem)
  | waiting schedulable untold first state =>
      rw [find?_unschedulable_eq_none schedulable, waitingReason?_eq_some first state]
      generalize i.searchTerminations = answer at search ⊢
      cases search with
      | telling first' => exact absurd first'.holds (untold _ first'.mem)
      | generic => rfl
      | nothing => rfl
  | generic schedulable untold ready last ended =>
      rw [find?_unschedulable_eq_none schedulable, waitingReason?_eq_none ready]
      generalize i.searchTerminations = answer at search ⊢
      cases search with
      | telling first' => exact absurd first'.holds (untold _ first'.mem)
      | generic _ last' ended' =>
          obtain rfl := last.unique last'
          obtain rfl := Option.some.inj (ended.symm.trans ended')
          rfl
      | nothing _ none_ => exact absurd last.holds (none_ _ last.mem)

theorem podError?_eq_none (healthy : ¬ i.Troubled) : i.podError? = none := by
  unfold Troubled at healthy
  push Not at healthy
  obtain ⟨schedulable, quiet⟩ := healthy
  have search : Searched i.status.containerStatuses none i.searchTerminations := searched ..
  unfold podError?
  rw [find?_unschedulable_eq_none schedulable,
    waitingReason?_eq_none fun s member => (quiet s member).2.1]
  generalize i.searchTerminations = answer at search ⊢
  cases search with
  | telling first => exact absurd first.holds (quiet _ first.mem).1
  | generic _ last => exact absurd last.holds (quiet _ last.mem).2.2
  | nothing => rfl

theorem podError?_eq_some_iff : i.podError? = some e ↔ i.Explains e := by
  refine ⟨fun reported => ?_, Explains.reported⟩
  have troubled : i.Troubled := Classical.byContradiction fun healthy => by
    cases (podError?_eq_none healthy).symm.trans reported
  obtain ⟨e', explains⟩ := exists_explains troubled
  rwa [← Option.some.inj (explains.reported.symm.trans reported)]

theorem podError?_eq_none_iff : i.podError? = none ↔ ¬ i.Troubled := by
  refine ⟨fun silent troubled => ?_, podError?_eq_none⟩
  obtain ⟨e, explains⟩ := exists_explains troubled
  cases silent.symm.trans explains.reported

/-- The reports on some instances are explanations of the troubled ones, one after the other. -/
theorem forall₂_explains (instances : List Instance) :
    List.Forall₂ Explains (instances.filter fun i => i.Troubled)
      (instances.filterMap (·.podError?)) := by
  induction instances with
  | nil => exact .nil
  | cons i rest ih =>
      by_cases troubled : i.Troubled
      · obtain ⟨e, explains⟩ := exists_explains troubled
        rw [List.filter_cons_of_pos (by simpa using troubled),
          List.filterMap_cons_some explains.reported]
        exact .cons explains ih
      · rw [List.filter_cons_of_neg (by simpa using troubled),
          List.filterMap_cons_none (podError?_eq_none troubled)]
        exact ih

/-- **Instances are diagnosed by priority.**  What is reported of an instance is what explains its
trouble by the first rule that applies, and nothing is reported of one that has no trouble.  A
diagnosis has one report on each troubled instance and none on the others, in their order. -/
theorem diagnosed_by_priority (instances : List Instance) (timeout now : Nat) :
    (∀ (i : Instance) (e : PodError), i.podError? = some e ↔ i.Explains e) ∧
      (∀ i : Instance, i.podError? = none ↔ ¬ i.Troubled) ∧
      List.Forall₂ Explains (instances.filter fun i => i.Troubled)
        (diagnose instances timeout now).podErrors :=
  ⟨fun _ _ => podError?_eq_some_iff, fun _ => podError?_eq_none_iff, forall₂_explains instances⟩

end Object
end Cutover
