/-
# Cutover.Proofs.Release.Tenure -- since when a release has been in its state

A health step goes by the role and wishes of the release at that time, by what is observed of its
instances, and by the state that the step before has left.  It may overrule the state twice, and
only then compares it with the state before: if the two are the same and the state is dated, the
date is kept, and otherwise it is the time of the step (`stateChangedAt_examined`).

So the date is that of the first of the last steps that all came to the present state
(`LastRun`), whatever became of the release meanwhile, and since time does not run backwards it is
never taken back and never ahead (`dated_by_first_of_last_run`).  A date of zero stands for none, which
is why the steps have to be at other times.
-/
import Cutover.Proofs.Ramp.GivenUp
import Mathlib.Data.List.Induction

namespace Cutover

set_option autoImplicit false

/-- What a health step goes by, and its time. -/
structure Observation where
  spec : ReleaseSpec
  counts : ObservedCounts
  diagnosis : Option Diagnosis
  time : Nat

/-- The state that a health step came to, and its time. -/
structure Stage where
  state : ReleaseState
  time : Nat
  deriving DecidableEq

/-! ## The last run of one state -/

/-- The longest run of stages, up to the present one, that are all of one state. -/
structure LastRun (state : ReleaseState) (stages run : List Stage) : Prop where
  recent : run <:+ stages
  same : ∀ stage ∈ run, stage.state = state
  longest : ∀ other, other <:+ stages → (∀ stage ∈ other, stage.state = state) →
    other.length ≤ run.length

namespace LastRun

variable {state next : ReleaseState} {stages run : List Stage} {time : Nat}

/-- The state holds on. -/
theorem extend (last : LastRun state stages run) (time : Nat) :
    LastRun state (stages ++ [⟨state, time⟩]) (run ++ [⟨state, time⟩]) where
  recent := by
    obtain ⟨earlier, rfl⟩ := last.recent
    exact ⟨earlier, (List.append_assoc ..).symm⟩
  same stage member := by
    rcases List.mem_append.1 member with earlier | now
    · exact last.same stage earlier
    · rw [List.mem_singleton.1 now]
  longest other recent same := by
    rcases List.suffix_concat_iff.1 recent with rfl | ⟨earlier, rfl, inside⟩
    · exact Nat.zero_le _
    · have bound := last.longest earlier inside fun stage member =>
        same stage (List.mem_append_left _ member)
      simp only [List.length_append]
      omega

/-- Stages that end with one state do not end with another. -/
theorem eq_nil_of_ne {first : Stage} {rest other : List Stage}
    (last : LastRun state stages (first :: rest)) (ne : next ≠ state)
    (recent : other <:+ stages) (same : ∀ stage ∈ other, stage.state = next) : other = [] := by
  cases other with
  | nil => rfl
  | cons stage others =>
      have here : stage.state = next := same stage List.mem_cons_self
      have there : first.state = state := last.same first List.mem_cons_self
      -- of two ends of one list, one is an end of the other
      rcases List.suffix_or_suffix_of_suffix recent last.recent with inside | inside
      · exact absurd (here.symm.trans (last.same stage (inside.subset List.mem_cons_self))) ne
      · exact absurd ((same first (inside.subset List.mem_cons_self)).symm.trans there) ne

/-- A run begins where the stages before hold none. -/
theorem begin (none_ : ∀ other, other <:+ stages → (∀ stage ∈ other, stage.state = state) →
    other = []) (time : Nat) : LastRun state (stages ++ [⟨state, time⟩]) [⟨state, time⟩] where
  recent := List.suffix_append ..
  same stage member := by rw [List.mem_singleton.1 member]
  longest other recent same := by
    rcases List.suffix_concat_iff.1 recent with rfl | ⟨earlier, rfl, inside⟩
    · exact Nat.zero_le _
    · rw [none_ earlier inside fun stage member => same stage (List.mem_append_left _ member)]
      exact Nat.le_refl _

end LastRun

/-! ## Health steps in a row -/

namespace Release

variable {r : Release} {xs : List Observation} {x : Observation}

/-- The release after a health step. -/
def examined (r : Release) (x : Observation) : Release :=
  checked x.counts x.diagnosis { r with spec := x.spec } x.time

/-- The release after health steps in a row. -/
def followed (r : Release) (xs : List Observation) : Release := xs.foldl examined r

/-- What health steps in a row came to. -/
def stages : Release → List Observation → List Stage
  | _, [] => []
  | r, x :: rest => ⟨(r.examined x).status.state, x.time⟩ :: stages (r.examined x) rest

theorem followed_concat (r : Release) (xs : List Observation) (x : Observation) :
    r.followed (xs ++ [x]) = (r.followed xs).examined x := List.foldl_append

theorem stages_concat (r : Release) (xs : List Observation) (x : Observation) :
    r.stages (xs ++ [x]) = r.stages xs ++ [⟨(r.followed (xs ++ [x])).status.state, x.time⟩] := by
  induction xs generalizing r with
  | nil => rfl
  | cons y ys ih =>
      rw [List.cons_append, stages, ih]
      rfl

/-- When a step finds that the state has changed. -/
theorem stateChangedAt_examined (r : Release) (x : Observation) :
    (r.examined x).status.stateChangedAt =
      if (r.examined x).status.state = r.status.state ∧ r.status.stateChangedAt ≠ 0
      then r.status.stateChangedAt else x.time := rfl

/-- Steps date a state no later than they come themselves. -/
theorem stateChangedAt_le {time : Nat} (start : r.status.stateChangedAt ≤ time)
    (past : ∀ x ∈ xs, x.time ≤ time) : (r.followed xs).status.stateChangedAt ≤ time := by
  induction xs generalizing r with
  | nil => exact start
  | cons x rest ih =>
      obtain ⟨here, there⟩ := List.forall_mem_cons.1 past
      refine ih ?_ there
      rw [stateChangedAt_examined]
      split
      · exact start
      · exact here

/-- The date of the state is the time at which its last run began, and the run is there. -/
def Dated (r : Release) (stages : List Stage) : Prop :=
  ∃ first rest, LastRun r.status.state stages (first :: rest) ∧
    r.status.stateChangedAt = first.time

/-- The first step dates the state. -/
theorem dated_first (undated : r.status.stateChangedAt = 0) (x : Observation) :
    Dated (r.examined x) (r.stages [x]) := by
  have none_ : ∀ other, other <:+ ([] : List Stage) →
      (∀ stage ∈ other, stage.state = (r.examined x).status.state) → other = [] :=
    fun other recent _ => List.suffix_nil.1 recent
  refine ⟨⟨(r.examined x).status.state, x.time⟩, [], LastRun.begin none_ x.time, ?_⟩
  · rw [stateChangedAt_examined, if_neg (by simp [undated])]

/-- Each further step keeps the date with the state, or dates another state. -/
theorem Dated.step {stages : List Stage} (dated : Dated r stages)
    (positive : r.status.stateChangedAt ≠ 0) (x : Observation) :
    Dated (r.examined x) (stages ++ [⟨(r.examined x).status.state, x.time⟩]) := by
  obtain ⟨first, rest, last, date⟩ := dated
  by_cases holds : (r.examined x).status.state = r.status.state
  · refine ⟨first, rest ++ [⟨(r.examined x).status.state, x.time⟩], ?_, ?_⟩
    · rw [holds]
      exact last.extend x.time
    · rw [stateChangedAt_examined, if_pos ⟨holds, positive⟩, date]
  · refine ⟨_, [], LastRun.begin ?_ x.time, ?_⟩
    · intro other recent same
      exact last.eq_nil_of_ne holds recent same
    · rw [stateChangedAt_examined, if_neg (fun both => holds both.1)]

theorem stateChangedAt_pos (dated : r.status.stateChangedAt ≠ 0 ∨ xs ≠ [])
    (positive : ∀ x ∈ xs, 0 < x.time) : (r.followed xs).status.stateChangedAt ≠ 0 := by
  induction xs generalizing r with
  | nil => exact dated.resolve_right (fun ne => ne rfl)
  | cons x rest ih =>
      obtain ⟨here, there⟩ := List.forall_mem_cons.1 positive
      refine ih (.inl ?_) there
      rw [stateChangedAt_examined]
      split
      · rename_i kept
        exact kept.2
      · exact Nat.ne_of_gt here

theorem dated_followed (undated : r.status.stateChangedAt = 0)
    (positive : ∀ x ∈ xs, 0 < x.time) (x : Observation) :
    Dated (r.followed (xs ++ [x])) (r.stages (xs ++ [x])) := by
  induction xs using List.reverseRecOn generalizing x with
  | nil => exact dated_first undated x
  | append_singleton xs y ih =>
      have earlier := ih (fun z member => positive z (List.mem_append_left _ member)) y
      have dated := stateChangedAt_pos (r := r) (.inr (List.concat_ne_nil y xs)) positive
      rw [stages_concat, followed_concat r (xs ++ [y]) x]
      exact earlier.step dated x

/-- **A state is dated by the first step of its last run.**  Whatever the spec, the counts and the
diagnosis are at each of the steps, after the latest of them `stateChangedAt` is the time of the
first in the longest run of steps up to it that all came to the state the release is in.  It is
not later than that step, and not earlier than it was before. -/
theorem dated_by_first_of_last_run (r : Release) (undated : r.status = Kind.unobserved .releases)
    (xs : List Observation) (x : Observation)
    (ordered : (xs ++ [x]).Pairwise fun y z => y.time ≤ z.time)
    (positive : ∀ y ∈ xs ++ [x], 0 < y.time) :
    let now := r.followed (xs ++ [x])
    (∃ first rest, LastRun now.status.state (r.stages (xs ++ [x])) (first :: rest) ∧
      now.status.stateChangedAt = first.time) ∧
    now.status.stateChangedAt ≤ x.time ∧
    (r.followed xs).status.stateChangedAt ≤ now.status.stateChangedAt := by
  intro now
  have zero : r.status.stateChangedAt = 0 := by rw [undated]; rfl
  have past : ∀ y ∈ xs, y.time ≤ x.time := fun y member =>
    (List.pairwise_append.1 ordered).2.2 y member x (List.mem_singleton_self x)
  have before : (r.followed xs).status.stateChangedAt ≤ x.time :=
    stateChangedAt_le (by omega) past
  have date : now = (r.followed xs).examined x := followed_concat r xs x
  refine ⟨?_, ?_, ?_⟩
  · exact dated_followed zero (fun y member => positive y (List.mem_append_left _ member)) x
  · rw [date, stateChangedAt_examined]
    split
    · exact before
    · exact Nat.le_refl _
  · rw [date, stateChangedAt_examined]
    split
    · exact Nat.le_refl _
    · exact before

namespace Sample

/-- A release that nothing has been observed of. -/
def unseen : Release :=
  { info := Meta.fresh "prod" "web-1", spec := default, status := Kind.unobserved .releases }

/-- A step at which the release has a role, and its one instance does not come up. -/
def missing (role : ReleaseRole) (stuck : Bool) (time : Nat) : Observation :=
  { spec := { (default : ReleaseSpec) with role, numDesired := 1 }
    counts := ⟨1, 0, 0⟩
    diagnosis := some ⟨[], stuck⟩
    time }

/-- The release is to take over, is stuck, and then has its role taken away. -/
def decline : List Observation :=
  [missing .target false 10, missing .target true 20, missing .none true 30]

/-- It has failed since it was stuck, also once the diagnosis no longer says so. -/
theorem failed_since_stuck :
    (unseen.followed (decline ++ [missing .none false 40])).status.state = .failed ∧
      ∃ first rest, LastRun .failed (unseen.stages (decline ++ [missing .none false 40]))
        (first :: rest) ∧ first.time = 20 := by
  have state : (unseen.followed (decline ++ [missing .none false 40])).status.state = .failed := by
    decide
  have date : (unseen.followed (decline ++ [missing .none false 40])).status.stateChangedAt = 20 := by
    decide
  obtain ⟨⟨first, rest, last, dated⟩, -, -⟩ :=
    dated_by_first_of_last_run unseen rfl decline (missing .none false 40) (by decide) (by decide)
  rw [state] at last
  exact ⟨state, first, rest, last, dated.symm.trans date⟩

end Sample

end Release
end Cutover
