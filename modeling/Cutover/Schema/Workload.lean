/-
# Cutover.Schema.Workload -- replica groups, instances and autoscalers

The objects of the workload runtime: a replica group asks for a number of
identical instances, instances report what became of them, and an autoscaler
bounds and steers the count of one group.
-/
import Cutover.Schema.Container

namespace Cutover

set_option autoImplicit false

/-! ## Replica groups -/

/-- What every instance of a group runs. -/
structure PodTemplate where
  labels : Dict String
  containers : List Container
  serviceAccount : Option String
  imagePullSecrets : List String
  deriving DecidableEq, Inhabited

namespace PodTemplate

def toJson (t : PodTemplate) : Json :=
  .obj ([
    ("labels", Json.dict .str t.labels),
    ("containers", Json.list Container.toJson t.containers)] ++
    Json.optional "service_account" .str t.serviceAccount ++ [
    ("image_pull_secrets", Json.list .str t.imagePullSecrets)])

open Json.Reader in
def ofJson? : Json → Option PodTemplate := read? do
  return {
    labels := ← defaulted "labels" ∅ (Json.dict? Json.text?)
    containers := ← required "containers" (Json.list? Container.ofJson?)
    serviceAccount := ← optional "service_account" Json.text?
    imagePullSecrets := ← defaulted "image_pull_secrets" [] (Json.list? Json.text?) }

end PodTemplate

structure ReplicaGroupSpec where
  replicas : Nat
  selector : Dict String
  template : PodTemplate
  deriving DecidableEq, Inhabited

namespace ReplicaGroupSpec

def toJson (g : ReplicaGroupSpec) : Json :=
  .obj [
    ("replicas", .nat g.replicas),
    ("selector", Json.dict .str g.selector),
    ("template", g.template.toJson)]

open Json.Reader in
def ofJson? : Json → Option ReplicaGroupSpec := read? do
  return {
    replicas := ← required "replicas" Json.nat32?
    selector := ← defaulted "selector" ∅ (Json.dict? Json.text?)
    template := ← required "template" PodTemplate.ofJson? }

end ReplicaGroupSpec

structure ReplicaGroupStatus where
  replicas : Nat
  readyReplicas : Nat
  availableReplicas : Nat
  deriving DecidableEq, Inhabited

namespace ReplicaGroupStatus

def toJson (s : ReplicaGroupStatus) : Json :=
  .obj [
    ("replicas", .nat s.replicas),
    ("ready_replicas", .nat s.readyReplicas),
    ("available_replicas", .nat s.availableReplicas)]

open Json.Reader in
def ofJson? : Json → Option ReplicaGroupStatus := read? do
  return {
    replicas := ← defaulted "replicas" 0 Json.nat32?
    readyReplicas := ← defaulted "ready_replicas" 0 Json.nat32?
    availableReplicas := ← defaulted "available_replicas" 0 Json.nat32? }

end ReplicaGroupStatus

/-! ## Instances -/

inductive InstancePhase where
  | pending
  | running
  | succeeded
  | failed
  | unknown
  deriving DecidableEq, Inhabited

namespace InstancePhase

def names : List (String × InstancePhase) :=
  [ ("pending", pending), ("running", running), ("succeeded", succeeded), ("failed", failed),
    ("unknown", unknown) ]

def name : InstancePhase → String
  | pending => "pending"
  | running => "running"
  | succeeded => "succeeded"
  | failed => "failed"
  | unknown => "unknown"

def toJson (p : InstancePhase) : Json := .str p.name

def ofJson? : Json → Option InstancePhase := Json.choice? names

end InstancePhase

structure InstanceCondition where
  kind : String
  reason : String
  message : String
  deriving DecidableEq, Inhabited

namespace InstanceCondition

def toJson (c : InstanceCondition) : Json :=
  .obj [("kind", .str c.kind), ("reason", .str c.reason), ("message", .str c.message)]

open Json.Reader in
def ofJson? : Json → Option InstanceCondition := read? do
  return {
    kind := ← required "kind" Json.text?
    reason := ← defaulted "reason" "" Json.text?
    message := ← defaulted "message" "" Json.text? }

end InstanceCondition

/-- How a container ended. -/
structure Termination where
  exitCode : Int
  reason : String
  message : String
  deriving DecidableEq, Inhabited

namespace Termination

/-- The fields, for use beside a tag as well. -/
def fields (t : Termination) : List (String × Json) :=
  [("exit_code", .int t.exitCode), ("reason", .str t.reason), ("message", .str t.message)]

def toJson (t : Termination) : Json := .obj t.fields

open Json.Reader in
def reader : Json.Reader Termination := do
  return {
    exitCode := ← defaulted "exit_code" 0 Json.int32?
    reason := ← defaulted "reason" "" Json.text?
    message := ← defaulted "message" "" Json.text? }

def ofJson? : Json → Option Termination := Json.Reader.read? reader

end Termination

inductive ContainerState where
  | running
  | waiting (reason message : String)
  | terminated (termination : Termination)
  deriving DecidableEq, Inhabited

namespace ContainerState

def toJson : ContainerState → Json
  | running => .obj [("type", .str "running")]
  | waiting reason message =>
      .obj [("type", .str "waiting"), ("reason", .str reason), ("message", .str message)]
  | terminated termination => .obj (("type", .str "terminated") :: termination.fields)

open Json.Reader in
def ofJson? (j : Json) : Option ContainerState := do
  let (tag, fields) ← j.tagged? "type"
  match tag with
  | "running" => ofRecord? (return .running) fields
  | "waiting" =>
      let reader : Json.Reader ContainerState := do
        let reason ← defaulted "reason" "" Json.text?
        let message ← defaulted "message" "" Json.text?
        return .waiting reason message
      ofRecord? reader fields
  | "terminated" => ofRecord? (return .terminated (← Termination.reader)) fields
  | _ => none

end ContainerState

structure ContainerStatus where
  name : String
  state : ContainerState
  lastTermination : Option Termination
  deriving DecidableEq, Inhabited

namespace ContainerStatus

def toJson (s : ContainerStatus) : Json :=
  .obj ([("name", .str s.name), ("state", s.state.toJson)] ++
    Json.optional "last_termination" Termination.toJson s.lastTermination)

open Json.Reader in
def ofJson? : Json → Option ContainerStatus := read? do
  return {
    name := ← required "name" Json.text?
    state := ← defaulted "state" .running ContainerState.ofJson?
    lastTermination := ← optional "last_termination" Termination.ofJson? }

end ContainerStatus

structure InstanceSpec where
  nodeName : Option String
  deriving DecidableEq, Inhabited

namespace InstanceSpec

def toJson (i : InstanceSpec) : Json := .obj (Json.optional "node_name" .str i.nodeName)

open Json.Reader in
def ofJson? : Json → Option InstanceSpec := read? do
  return { nodeName := ← optional "node_name" Json.text? }

end InstanceSpec

/-- Observed state of an instance; the CPU use is a percentage of the request. -/
structure InstanceStatus where
  phase : InstancePhase
  conditions : List InstanceCondition
  containerStatuses : List ContainerStatus
  cpuUtilization : Option Nat
  deriving DecidableEq, Inhabited

namespace InstanceStatus

def toJson (s : InstanceStatus) : Json :=
  .obj ([
    ("phase", s.phase.toJson),
    ("conditions", Json.list InstanceCondition.toJson s.conditions),
    ("container_statuses", Json.list ContainerStatus.toJson s.containerStatuses)] ++
    Json.optional "cpu_utilization" .nat s.cpuUtilization)

open Json.Reader in
def ofJson? : Json → Option InstanceStatus := read? do
  return {
    phase := ← defaulted "phase" .pending InstancePhase.ofJson?
    conditions := ← defaulted "conditions" [] (Json.list? InstanceCondition.ofJson?)
    containerStatuses := ←
      defaulted "container_statuses" [] (Json.list? ContainerStatus.ofJson?)
    cpuUtilization := ← optional "cpu_utilization" Json.nat32? }

end InstanceStatus

/-! ## Autoscalers -/

/-- Bounds and aim for the instance count of one release's replica group. -/
structure AutoscalerSpec where
  release : String
  minReplicas : Nat
  maxReplicas : Nat
  targetUtilization : Nat
  deriving DecidableEq, Inhabited

namespace AutoscalerSpec

def toJson (a : AutoscalerSpec) : Json :=
  .obj [
    ("release", .str a.release),
    ("min_replicas", .nat a.minReplicas),
    ("max_replicas", .nat a.maxReplicas),
    ("target_cpu_utilization", .nat a.targetUtilization)]

open Json.Reader in
def ofJson? : Json → Option AutoscalerSpec := read? do
  return {
    release := ← required "release" Json.text?
    minReplicas := ← required "min_replicas" Json.nat32?
    maxReplicas := ← required "max_replicas" Json.nat32?
    targetUtilization := ← defaulted "target_cpu_utilization" 0 Json.nat32? }

end AutoscalerSpec

structure AutoscalerStatus where
  lastScaleTime : Option Nat
  currentReplicas : Nat
  desiredReplicas : Nat
  deriving DecidableEq, Inhabited

namespace AutoscalerStatus

def toJson (s : AutoscalerStatus) : Json :=
  .obj (Json.optional "last_scale_time" .nat s.lastScaleTime ++ [
    ("current_replicas", .nat s.currentReplicas),
    ("desired_replicas", .nat s.desiredReplicas)])

open Json.Reader in
def ofJson? : Json → Option AutoscalerStatus := read? do
  return {
    lastScaleTime := ← optional "last_scale_time" Json.nat64?
    currentReplicas := ← defaulted "current_replicas" 0 Json.nat32?
    desiredReplicas := ← defaulted "desired_replicas" 0 Json.nat32? }

end AutoscalerStatus
end Cutover
