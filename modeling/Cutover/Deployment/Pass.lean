/-
# Cutover.Deployment.Pass -- one pass over a descriptor

The pass resolves the descriptor's configuration, makes sure that a release exists
for its current fingerprint and configuration, runs the ramp, stores the releases
the ramp touched, drops old ones, and brings the autoscaler, the traffic split and
the descriptor's status in line.

The time of a ramp step is stored before the releases it moved: a pass that fails
in between is held by that time when it is repeated.

With the descriptor gone the pass removes what it owned.
-/
import Cutover.Configuration
import Cutover.Duration
import Cutover.Release.Name
import Cutover.Release.Ramp
import Cutover.Release.Retention
import Cutover.Routing
import Cutover.Scaling.Binding

namespace Cutover.Deployment

set_option autoImplicit false

/-! ## A descriptor that is gone -/

/-- Delete the objects of a kind with an owner; how many there were. -/
def removeOwnedOf (k : Kind) (owner : String) : Pass StoreError Nat := do
  let owned := ((← getThe Store).list k).filter fun o => o.info.owner = some owner
  let removed ← owned.mapM fun o => Pass.write fun s => .ok (s.delete k o.info.ns o.info.name)
  return (removed.filter id).length

/-- Delete everything a descriptor owned.  Replica groups follow their releases. -/
def removeOwned (key : String) : Pass StoreError Nat := do
  let releases ← removeOwnedOf .releases key
  let autoscalers ← removeOwnedOf .autoscalers key
  let splits ← removeOwnedOf .trafficSplits key
  let maps ← removeOwnedOf .configMaps key
  return releases + autoscalers + splits + maps

/-! ## The releases of a descriptor -/

/-- The descriptor's configuration with the name of its config map, which is stored
if it was not. -/
def configure (d : Descriptor) : Pass DeployError (Option (Configuration × String)) := do
  match Configuration.resolve (← getThe Store) d with
  | none => return none
  | some c =>
      let name ← (Configuration.ensureMap d c).within .store
      return some (c, name)

/-- Whether a release was cut from a fingerprint and a config map. -/
def isCurrent (targetHash : String) (config : Option (Configuration × String)) (r : Release) :
    Bool :=
  r.label? Label.targetHash = some targetHash && config.all fun c => r.spec.config = c.2

/-- The stored releases of a descriptor, with a new one if none is current, newest
first. -/
def candidates (s : Store) (d : Descriptor) (build : Build)
    (config : Option (Configuration × String)) : List Release :=
  let stored := s.matching .releases (Selector.ofTarget d.spec.app d.spec.target)
  let targetHash := d.spec.fingerprint
  let releases :=
    if stored.any (isCurrent targetHash config) then stored
    else stored ++ [Release.cut d build targetHash (config.map fun c => (c.1.hash, c.2))]
  Release.sortNewestFirst releases

/-- Store one release as the ramp left it, if that differs from what it was. -/
def persist (r before : Release) : Pass StoreError Release :=
  if !r.info.isPersisted then Pass.write (·.create r)
  else if r ≠ before then Pass.write (·.updateSpec r)
  else return r

/-- Store the releases one after the other. -/
def persistAll (rs : List (Release × Release)) : Pass StoreError (List Release) :=
  rs.mapM fun r => persist r.1 r.2

/-! ## The pass -/

/-- Store the time of the last movement, if the ramp changed it. -/
def stamp (d : Descriptor) (observed : DescriptorStatus) : Pass StoreError Unit := do
  if d.status.deployUpdatedAt ≠ observed.deployUpdatedAt then
    discard <| Store.modifyStatus .descriptors d.info.ns d.info.name fun stored =>
      { stored.status with deployUpdatedAt := d.status.deployUpdatedAt }

/-- Store the status, if it changed. -/
def report (d : Descriptor) (observed : DescriptorStatus) : Pass StoreError Unit := do
  if d.status ≠ observed then
    discard <| Store.modifyStatus .descriptors d.info.ns d.info.name fun _ => d.status

/-- Store what the ramp decided and everything that follows from it. -/
def carryOut (result : Ramp.Result) (observed : DescriptorStatus) (before : List Release)
    (now : Nat) : Pass DeployError Unit := do
  (stamp result.descriptor observed).within .store
  let releases ← (persistAll (result.releases.zip before)).within .store
  discard <| (Release.collectGarbage releases now).within .store
  let d ← (Binding.reconcile result.descriptor releases).within .autoscaler
  discard <| (Routing.publish d releases).within .store
  (report d observed).within .store

/-- One pass over a descriptor that exists. -/
def deploy (d : Descriptor) (now : Nat) : Pass DeployError Action := do
  let config ← configure d
  match (← getThe Store).get .builds "" d.spec.build with
  | none => throw (.missingBuild d.spec.build)
  | some build =>
      let before := candidates (← getThe Store) d build config
      match Ramp.pass d before now with
      | .error e => throw e
      | .ok result =>
          carryOut result d.status before now
          return match result.outcome.requeueAfter with
            | some seconds => .requeue (.ofSeconds seconds)
            | none => .awaitChange

/-- One pass over the descriptor of a key at a time. -/
def run (key : String) (now : Nat) : Pass DeployError Action := do
  match (← getThe Store).getByKey .descriptors key with
  | some d => deploy d now
  | none =>
      discard <| (removeOwned key).within .store
      return .awaitChange

end Cutover.Deployment
