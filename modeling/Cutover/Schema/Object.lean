/-
# Cutover.Schema.Object -- stored objects of nine kinds

Every stored object has metadata, a `spec` that says what is wanted and a
`status` that says what was observed.  Both halves depend on the object's kind
(`Kind.Spec`, `Kind.Status`) and each has a version of its own.  Four kinds have
no status; theirs is the unit value, written as null.

An object is stored under `Meta.key`: its name, after the namespace and a slash
if it has a namespace.
-/
import Cutover.Schema.Build
import Cutover.Schema.Configuration
import Cutover.Schema.Descriptor
import Cutover.Schema.Release
import Cutover.Schema.Routing
import Cutover.Schema.Workload

namespace Cutover

set_option autoImplicit false

/-! ## Kinds -/

inductive Kind where
  | descriptors
  | builds
  | releases
  | replicaGroups
  | instances
  | autoscalers
  | appConfigs
  | configMaps
  | trafficSplits
  deriving DecidableEq, Inhabited

namespace Kind

def all : List Kind :=
  [ descriptors, builds, releases, replicaGroups, instances, autoscalers, appConfigs, configMaps,
    trafficSplits ]

/-- The name of a kind in events, messages and index keys. -/
def name : Kind → String
  | descriptors => "apptargets"
  | builds => "builds"
  | releases => "appreleases"
  | replicaGroups => "replicagroups"
  | instances => "instances"
  | autoscalers => "autoscalers"
  | appConfigs => "appconfigs"
  | configMaps => "configmaps"
  | trafficSplits => "trafficsplits"

def ofName? (s : String) : Option Kind := all.find? (·.name = s)

abbrev Spec : Kind → Type
  | descriptors => DescriptorSpec
  | builds => BuildSpec
  | releases => ReleaseSpec
  | replicaGroups => ReplicaGroupSpec
  | instances => InstanceSpec
  | autoscalers => AutoscalerSpec
  | appConfigs => AppConfigSpec
  | configMaps => ConfigMapSpec
  | trafficSplits => TrafficSplitSpec

abbrev Status : Kind → Type
  | descriptors => DescriptorStatus
  | releases => ReleaseStatus
  | replicaGroups => ReplicaGroupStatus
  | instances => InstanceStatus
  | autoscalers => AutoscalerStatus
  | builds => Unit
  | appConfigs => Unit
  | configMaps => Unit
  | trafficSplits => Unit

instance specDecidableEq : (k : Kind) → DecidableEq k.Spec
  | descriptors => inferInstanceAs (DecidableEq DescriptorSpec)
  | builds => inferInstanceAs (DecidableEq BuildSpec)
  | releases => inferInstanceAs (DecidableEq ReleaseSpec)
  | replicaGroups => inferInstanceAs (DecidableEq ReplicaGroupSpec)
  | instances => inferInstanceAs (DecidableEq InstanceSpec)
  | autoscalers => inferInstanceAs (DecidableEq AutoscalerSpec)
  | appConfigs => inferInstanceAs (DecidableEq AppConfigSpec)
  | configMaps => inferInstanceAs (DecidableEq ConfigMapSpec)
  | trafficSplits => inferInstanceAs (DecidableEq TrafficSplitSpec)

instance statusDecidableEq : (k : Kind) → DecidableEq k.Status
  | descriptors => inferInstanceAs (DecidableEq DescriptorStatus)
  | builds => inferInstanceAs (DecidableEq Unit)
  | releases => inferInstanceAs (DecidableEq ReleaseStatus)
  | replicaGroups => inferInstanceAs (DecidableEq ReplicaGroupStatus)
  | instances => inferInstanceAs (DecidableEq InstanceStatus)
  | autoscalers => inferInstanceAs (DecidableEq AutoscalerStatus)
  | appConfigs => inferInstanceAs (DecidableEq Unit)
  | configMaps => inferInstanceAs (DecidableEq Unit)
  | trafficSplits => inferInstanceAs (DecidableEq Unit)

/-- The status of an object nothing has been observed of. -/
def unobserved : (k : Kind) → k.Status
  | descriptors => (default : DescriptorStatus)
  | builds => ()
  | releases => (default : ReleaseStatus)
  | replicaGroups => (default : ReplicaGroupStatus)
  | instances => (default : InstanceStatus)
  | autoscalers => (default : AutoscalerStatus)
  | appConfigs => ()
  | configMaps => ()
  | trafficSplits => ()

def specToJson : (k : Kind) → k.Spec → Json
  | descriptors => DescriptorSpec.toJson
  | builds => BuildSpec.toJson
  | releases => ReleaseSpec.toJson
  | replicaGroups => ReplicaGroupSpec.toJson
  | instances => InstanceSpec.toJson
  | autoscalers => AutoscalerSpec.toJson
  | appConfigs => AppConfigSpec.toJson
  | configMaps => ConfigMapSpec.toJson
  | trafficSplits => TrafficSplitSpec.toJson

def specOfJson? : (k : Kind) → Json → Option k.Spec
  | descriptors => DescriptorSpec.ofJson?
  | builds => BuildSpec.ofJson?
  | releases => ReleaseSpec.ofJson?
  | replicaGroups => ReplicaGroupSpec.ofJson?
  | instances => InstanceSpec.ofJson?
  | autoscalers => AutoscalerSpec.ofJson?
  | appConfigs => AppConfigSpec.ofJson?
  | configMaps => ConfigMapSpec.ofJson?
  | trafficSplits => TrafficSplitSpec.ofJson?

/-- Null, for kinds that have no status. -/
def noStatus? : Json → Option Unit
  | .null => some ()
  | _ => none

def statusToJson : (k : Kind) → k.Status → Json
  | descriptors => DescriptorStatus.toJson
  | builds => fun _ => .null
  | releases => ReleaseStatus.toJson
  | replicaGroups => ReplicaGroupStatus.toJson
  | instances => InstanceStatus.toJson
  | autoscalers => AutoscalerStatus.toJson
  | appConfigs => fun _ => .null
  | configMaps => fun _ => .null
  | trafficSplits => fun _ => .null

def statusOfJson? : (k : Kind) → Json → Option k.Status
  | descriptors => DescriptorStatus.ofJson?
  | builds => noStatus?
  | releases => ReleaseStatus.ofJson?
  | replicaGroups => ReplicaGroupStatus.ofJson?
  | instances => InstanceStatus.ofJson?
  | autoscalers => AutoscalerStatus.ofJson?
  | appConfigs => noStatus?
  | configMaps => noStatus?
  | trafficSplits => noStatus?

end Kind

/-! ## Keys -/

/-- The key of a name in a namespace; the empty namespace leaves the bare name. -/
def objectKey (ns name : String) : String :=
  if ns = "" then name else ns ++ "/" ++ name

/-- The namespace and name of a key: what stands before and after the first slash. -/
def splitKey (key : String) : String × String :=
  match key.toList.span (· != '/') with
  | (ns, _ :: name) => (String.ofList ns, String.ofList name)
  | (_, []) => ("", key)

/-! ## Objects -/

/-- Identity, labels and versions.  An owner is given by its key.  The store fills
in a creation time that is zero and counts the writes of either half. -/
structure Meta where
  name : String
  ns : String
  labels : Dict String
  owner : Option String
  createdAt : Nat
  specVersion : Nat
  statusVersion : Nat
  deriving DecidableEq, Inhabited

namespace Meta

/-- Metadata of an object that no store has seen. -/
def fresh (ns name : String) : Meta :=
  { name, ns, labels := ∅, owner := none, createdAt := 0, specVersion := 0, statusVersion := 0 }

def key (m : Meta) : String := objectKey m.ns m.name

/-- Whether a store has accepted the object. -/
def isPersisted (m : Meta) : Bool := m.specVersion > 0

def toJson (m : Meta) : Json :=
  .obj [
    ("name", .str m.name),
    ("namespace", .str m.ns),
    ("labels", Json.dict .str m.labels),
    ("owner", Json.option .str m.owner),
    ("created_at", .nat m.createdAt),
    ("spec_version", .nat m.specVersion),
    ("status_version", .nat m.statusVersion)]

open Json.Reader in
def ofJson? : Json → Option Meta := read? do
  return {
    name := ← required "name" Json.text?
    ns := ← defaulted "namespace" "" Json.text?
    labels := ← defaulted "labels" ∅ (Json.dict? Json.text?)
    owner := ← optional "owner" Json.text?
    createdAt := ← defaulted "created_at" 0 Json.nat64?
    specVersion := ← defaulted "spec_version" 0 Json.nat64?
    statusVersion := ← defaulted "status_version" 0 Json.nat64? }

end Meta

/-- An object of one kind. -/
structure Object (k : Kind) where
  info : Meta
  spec : k.Spec
  status : k.Status
  deriving DecidableEq

abbrev Descriptor := Object .descriptors
abbrev Build := Object .builds
abbrev Release := Object .releases
abbrev ReplicaGroup := Object .replicaGroups
abbrev Instance := Object .instances
abbrev Autoscaler := Object .autoscalers
abbrev AppConfig := Object .appConfigs
abbrev ConfigMap := Object .configMaps
abbrev TrafficSplit := Object .trafficSplits

namespace Object

variable {k : Kind}

def name (o : Object k) : String := o.info.name

def key (o : Object k) : String := o.info.key

def label? (o : Object k) (label : String) : Option String := o.info.labels.get? label

def toJson (o : Object k) : Json :=
  .obj [
    ("meta", o.info.toJson),
    ("spec", k.specToJson o.spec),
    ("status", k.statusToJson o.status)]

open Json.Reader in
def ofJson? (k : Kind) : Json → Option (Object k) := read? do
  return {
    info := ← required "meta" Meta.ofJson?
    spec := ← required "spec" k.specOfJson?
    status := ← defaulted "status" k.unobserved k.statusOfJson? }

end Object
end Cutover
