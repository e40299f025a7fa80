/-
# Cutover.Release.Pass -- one pass over a release

The pass brings the replica group of a release in line with it and folds what the
group and its instances report into the release's status.

A release that is gone or wants no instances has no group.  While an autoscaler is
bound to an active release that is not in promotion, the live group's count is left
alone (`autoscaledGroup?`).  Instances are diagnosed only if too few are available.
-/
import Cutover.Duration
import Cutover.Release.Health
import Cutover.Release.Workload

namespace Cutover.ReleasePass

set_option autoImplicit false

/-- Delete the replica group of a key. -/
def deleteGroup (ns name : String) : Pass ReleaseError Unit :=
  Pass.within .store <| Pass.write fun s => .ok ((), (s.delete .replicaGroups ns name).2)

/-- The live group, where an autoscaler and not the release decides its size. -/
def autoscaledGroup? (s : Store) (r : Release) : Option ReplicaGroup :=
  if r.spec.role != .active || (r.label? Label.promotionTarget).isSome || r.spec.numDesired = 0 then
    none
  else
    (s.get .replicaGroups r.info.ns r.name).filter fun live =>
      live.spec.replicas != 0 &&
        (s.matching .autoscalers (Selector.ofRelease r.name)).any fun a => a.info.ns = r.info.ns

/-- The group a release asks for, from its build, config map and dependencies. -/
def desiredGroup (s : Store) (r : Release) : Except ReleaseError ReplicaGroup :=
  match s.get .builds "" r.spec.build with
  | none => .error (.missingBuild r.spec.build)
  | some build =>
      let config := if r.spec.config = "" then none else s.get .configMaps r.info.ns r.spec.config
      (Workload.dependencyEnv s r).map (Workload.groupFor r build config)

/-- Bring the group in line; the group, if there is to be one. -/
def settleGroup (r : Release) (ns name : String) : Pass ReleaseError (Option ReplicaGroup) := do
  if r.spec.numDesired = 0 then
    deleteGroup ns name
    return none
  else
    let s ← getThe Store
    match autoscaledGroup? s r with
    | some live => return some live
    | none =>
        match desiredGroup s r with
        | .error e => throw e
        | .ok desired =>
            let (group, _) ← (Store.apply desired).within .store
            return some group

/-- The instances of a release. -/
def instancesOf (s : Store) (ns name : String) : List Instance :=
  (s.matching .instances (Selector.ofRelease name)).filter fun i => i.info.ns = ns

/-- The diagnosis of a release that is short of available instances. -/
def diagnosis? (s : Store) (r : Release) (ns name : String) (counts : ObservedCounts)
    (now : Nat) : Option Diagnosis :=
  if counts.available < r.spec.numDesired then
    some (diagnose (instancesOf s ns name) r.spec.runtime.probes.readinessTimeout now)
  else none

/-- One pass over the release of a key at a time. -/
def run (key : String) (now : Nat) : Pass ReleaseError Action := do
  let (ns, name) := splitKey key
  match (← getThe Store).get .releases ns name with
  | none =>
      deleteGroup ns name
      return .awaitChange
  | some r =>
      let group ← settleGroup r ns name
      let counts := ObservedCounts.ofGroup group
      let status := r.nextStatus counts (diagnosis? (← getThe Store) r ns name counts now) now
      if status ≠ r.status then
        discard <| (Store.modifyStatus .releases ns name fun _ => status).within .store
      return .awaitChange

end Cutover.ReleasePass
