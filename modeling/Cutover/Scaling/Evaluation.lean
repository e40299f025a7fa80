/-
# Cutover.Scaling.Evaluation -- one round over all autoscalers

Each autoscaler whose replica group exists is given the mean utilisation of the
release's running instances, and its decision goes straight to the group's count
and to the autoscaler's own status.
-/
import Cutover.Labels
import Cutover.Scaling.Decision
import Cutover.Store.Edit

namespace Cutover.Scaler

set_option autoImplicit false

/-- The mean of some samples, rounded down; nothing of none. -/
def mean (samples : List Nat) : Option Nat :=
  if samples.isEmpty then none else some (samples.foldl (· + ·) 0 / samples.length)

/-- The mean CPU use that the running instances of a release report. -/
def utilization (s : Store) (ns release : String) : Option Nat :=
  let running := (s.matching .instances (Selector.ofRelease release)).filter fun i =>
    i.info.ns = ns && i.status.phase = .running
  mean (running.filterMap (·.status.cpuUtilization))

/-- What an autoscaler's status says after a decision. -/
def noted (status : AutoscalerStatus) (current : Nat) (decision : Option Nat) (now : Nat) :
    AutoscalerStatus :=
  { currentReplicas := current
    desiredReplicas := decision.getD current
    lastScaleTime := if decision.isSome then some now else status.lastScaleTime }

/-- Evaluate one autoscaler and apply its decision; nothing without a group. -/
def evaluateOne (scaler : Scaler) (a : Autoscaler) :
    Pass StoreError (Option (String × Option Nat) × Scaler) := do
  let s ← getThe Store
  let now := s.clock
  let ns := a.info.ns
  match s.get .replicaGroups ns a.spec.release with
  | none => return (none, scaler)
  | some group =>
      let current := group.spec.replicas
      let (decision, scaler) :=
        scaler.evaluate a.key a.spec current (utilization s ns a.spec.release) now
      if let some n := decision then
        discard <| Store.modifySpec .replicaGroups ns a.spec.release fun g =>
          { g with spec.replicas := n }
      discard <| Store.modifyStatus .autoscalers ns a.name fun a =>
        noted a.status current decision now
      return (some (a.key, decision), scaler)

/-- Evaluate autoscalers one after the other. -/
def evaluateEach (scaler : Scaler) :
    List Autoscaler → Pass StoreError (List (String × Option Nat) × Scaler)
  | [] => return ([], scaler)
  | a :: rest => do
      let (first, scaler) ← evaluateOne scaler a
      let (others, scaler) ← evaluateEach scaler rest
      return (first.toList ++ others, scaler)

/-- One round: the decision for each autoscaler with a group, in key order. -/
def evaluateAll (scaler : Scaler) : Pass StoreError (List (String × Option Nat) × Scaler) := do
  evaluateEach scaler ((← getThe Store).list .autoscalers)

end Cutover.Scaler
