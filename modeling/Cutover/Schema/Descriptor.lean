/-
# Cutover.Schema.Descriptor -- deployment descriptors

A descriptor states what one application should run in one target: a build, the
shape of its container, configuration and scale.  Its status says which release
is active, which one is being promoted and how many instances the settled release
has.
-/
import Cutover.Schema.Container

namespace Cutover

set_option autoImplicit false

inductive DeployMode where
  | latest
  | halt
  deriving DecidableEq, Inhabited

namespace DeployMode

def names : List (String × DeployMode) := [("latest", latest), ("halt", halt)]

def name : DeployMode → String
  | latest => "latest"
  | halt => "halt"

def toJson (m : DeployMode) : Json := .str m.name

def ofJson? : Json → Option DeployMode := Json.choice? names

end DeployMode

/-- Bounds on the instance count and the average CPU use, in percent of the
request, that an autoscaler aims for; zero turns it off. -/
structure Scale where
  min : Nat
  max : Nat
  targetUtilization : Nat
  deriving DecidableEq, Inhabited

namespace Scale

def toJson (s : Scale) : Json :=
  .obj [
    ("min", .nat s.min),
    ("max", .nat s.max),
    ("target_cpu_utilization", .nat s.targetUtilization)]

open Json.Reader in
def ofJson? : Json → Option Scale := read? do
  return {
    min := ← defaulted "min" 0 Json.nat32?
    max := ← defaulted "max" 0 Json.nat32?
    targetUtilization := ← defaulted "target_cpu_utilization" 0 Json.nat32? }

end Scale

structure Ingress where
  hosts : List String
  paths : List String
  port : Option String
  requireHttps : Bool
  deriving DecidableEq, Inhabited

namespace Ingress

def toJson (i : Ingress) : Json :=
  .obj ([
    ("hosts", Json.list .str i.hosts),
    ("paths", Json.list .str i.paths)] ++
    Json.optional "port" .str i.port ++ [
    ("require_https", .bool i.requireHttps)])

open Json.Reader in
def ofJson? : Json → Option Ingress := read? do
  return {
    hosts := ← required "hosts" (Json.list? Json.text?)
    paths := ← defaulted "paths" [] (Json.list? Json.text?)
    port := ← optional "port" Json.text?
    requireHttps := ← defaulted "require_https" false Json.bool? }

end Ingress

/-- Desired state of one application in one target. -/
structure DescriptorSpec where
  app : String
  target : String
  build : String
  deployMode : DeployMode
  runtime : Runtime
  configs : List String
  scale : Scale
  ingress : Option Ingress
  deriving DecidableEq, Inhabited

namespace DescriptorSpec

def toJson (d : DescriptorSpec) : Json :=
  .obj ([
    ("app", .str d.app),
    ("target", .str d.target),
    ("build", .str d.build),
    ("deploy_mode", d.deployMode.toJson),
    ("runtime", d.runtime.toJson),
    ("configs", Json.list .str d.configs),
    ("scale", d.scale.toJson)] ++
    Json.optional "ingress" Ingress.toJson d.ingress)

open Json.Reader in
def ofJson? : Json → Option DescriptorSpec := read? do
  return {
    app := ← required "app" Json.text?
    target := ← required "target" Json.text?
    build := ← required "build" Json.text?
    deployMode := ← defaulted "deploy_mode" .latest DeployMode.ofJson?
    runtime := ← defaulted "runtime" default Runtime.ofJson?
    configs := ← defaulted "configs" [] (Json.list? Json.text?)
    scale := ← defaulted "scale" default Scale.ofJson?
    ingress := ← optional "ingress" Ingress.ofJson? }

end DescriptorSpec

inductive DeployPhase where
  | running
  | deploying
  | halted
  deriving DecidableEq, Inhabited

namespace DeployPhase

def names : List (String × DeployPhase) :=
  [("running", running), ("deploying", deploying), ("halted", halted)]

def name : DeployPhase → String
  | running => "running"
  | deploying => "deploying"
  | halted => "halted"

def toJson (p : DeployPhase) : Json := .str p.name

def ofJson? : Json → Option DeployPhase := Json.choice? names

end DeployPhase

/-- Observed state of a descriptor.  `deployUpdatedAt` is the time of the last
movement of traffic or roles, zero before the first. -/
structure DescriptorStatus where
  phase : DeployPhase
  targetRelease : String
  activeRelease : String
  deployUpdatedAt : Nat
  lastScaledAt : Option Nat
  numDesired : Nat
  numReady : Nat
  numAvailable : Nat
  deriving DecidableEq, Inhabited

namespace DescriptorStatus

def toJson (s : DescriptorStatus) : Json :=
  .obj ([
    ("phase", s.phase.toJson),
    ("target_release", .str s.targetRelease),
    ("active_release", .str s.activeRelease),
    ("deploy_updated_at", .nat s.deployUpdatedAt)] ++
    Json.optional "last_scaled_at" .nat s.lastScaledAt ++ [
    ("num_desired", .nat s.numDesired),
    ("num_ready", .nat s.numReady),
    ("num_available", .nat s.numAvailable)])

open Json.Reader in
def ofJson? : Json → Option DescriptorStatus := read? do
  return {
    phase := ← defaulted "phase" .running DeployPhase.ofJson?
    targetRelease := ← defaulted "target_release" "" Json.text?
    activeRelease := ← defaulted "active_release" "" Json.text?
    deployUpdatedAt := ← defaulted "deploy_updated_at" 0 Json.nat64?
    lastScaledAt := ← optional "last_scaled_at" Json.nat64?
    numDesired := ← defaulted "num_desired" 0 Json.nat32?
    numReady := ← defaulted "num_ready" 0 Json.nat32?
    numAvailable := ← defaulted "num_available" 0 Json.nat32? }

end DescriptorStatus
end Cutover
