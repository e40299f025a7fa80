/-
# Cutover.Rehearsal.Workloads -- a stand-in for the workload runtime

What a cluster reports about replica groups, for rehearsals: all instances a group
asks for become ready, up to a limit, unless an image cannot be pulled.  Then none
does, and the group's first instance says why.
-/
import Cutover.Store.Edit

namespace Cutover.Workloads

set_option autoImplicit false

/-- Whether an image is one that cannot be pulled. -/
def isBroken (c : Container) : Bool := c.image.endsWith ":broken"

/-- Whether a group runs an image that cannot be pulled. -/
def isDown (g : ReplicaGroup) : Bool := g.spec.template.containers.any isBroken

/-- The status reported for a group. -/
def statusOf (limit : Option Nat) (g : ReplicaGroup) : ReplicaGroupStatus :=
  let ready :=
    if isDown g then 0
    else match limit with
      | some most => min g.spec.replicas most
      | none => g.spec.replicas
  { replicas := g.spec.replicas, readyReplicas := ready, availableReplicas := ready }

/-- The first instance of a group whose image cannot be pulled. -/
def failingInstance (g : ReplicaGroup) : Instance :=
  let waiting : ContainerStatus :=
    { name := "web"
      state := .waiting "ImagePullBackOff" "manifest unknown"
      lastTermination := none }
  { info := { Meta.fresh g.info.ns (g.name ++ "-0") with
      labels := (∅ : Dict String).insert Label.release g.name }
    spec := default
    status := { (default : InstanceStatus) with
      phase := .pending, containerStatuses := [waiting] } }

/-- Report about one group. -/
def reportOne (limit : Option Nat) (g : ReplicaGroup) : Pass StoreError Unit := do
  discard <| Store.modifyStatus .replicaGroups g.info.ns g.name fun _ => statusOf limit g
  if isDown g then
    let i := failingInstance g
    if ((← getThe Store).getByKey .instances i.key).isNone then
      discard <| Pass.write (·.create i)

/-- Report about every group in key order. -/
def report (limit : Option Nat) : Pass StoreError Unit := do
  ((← getThe Store).list .replicaGroups).forM (reportOne limit)

end Cutover.Workloads
