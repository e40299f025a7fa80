/-
# Cutover.Proofs.Schema.Object -- objects survive their text

The text of an object (`Object.text`) is the compact form of its metadata, spec and status.
For each of the nine kinds an object whose numbers fit is decoded from its text as it was
(`Object.ofText?_text`): the owner that is null when there is none, the status that is null for
a kind without one, and whatever the spec and the status leave out.
-/
import Cutover.Proofs.Schema.Rollout
import Cutover.Proofs.Schema.Workload
import Cutover.Schema.Object

namespace Cutover

set_option autoImplicit false

open Json

/-! ## The two halves of each kind -/

namespace Kind

/-- The numbers of a spec fit. -/
def SpecInRange : (k : Kind) → k.Spec → Prop
  | descriptors => DescriptorSpec.InRange
  | builds => BuildSpec.InRange
  | releases => ReleaseSpec.InRange
  | replicaGroups => ReplicaGroupSpec.InRange
  | instances => Any
  | autoscalers => AutoscalerSpec.InRange
  | appConfigs => Any
  | configMaps => Any
  | trafficSplits => TrafficSplitSpec.InRange

/-- The numbers of a status fit. -/
def StatusInRange : (k : Kind) → k.Status → Prop
  | descriptors => DescriptorStatus.InRange
  | releases => ReleaseStatus.InRange
  | replicaGroups => ReplicaGroupStatus.InRange
  | instances => InstanceStatus.InRange
  | autoscalers => AutoscalerStatus.InRange
  | builds => Any
  | appConfigs => Any
  | configMaps => Any
  | trafficSplits => Any

instance decidableSpecInRange : (k : Kind) → (spec : k.Spec) → Decidable (k.SpecInRange spec)
  | descriptors, spec => inferInstanceAs (Decidable (DescriptorSpec.InRange spec))
  | builds, spec => inferInstanceAs (Decidable (BuildSpec.InRange spec))
  | releases, spec => inferInstanceAs (Decidable (ReleaseSpec.InRange spec))
  | replicaGroups, spec => inferInstanceAs (Decidable (ReplicaGroupSpec.InRange spec))
  | instances, _ => inferInstanceAs (Decidable True)
  | autoscalers, spec => inferInstanceAs (Decidable (AutoscalerSpec.InRange spec))
  | appConfigs, _ => inferInstanceAs (Decidable True)
  | configMaps, _ => inferInstanceAs (Decidable True)
  | trafficSplits, spec => inferInstanceAs (Decidable (TrafficSplitSpec.InRange spec))

instance decidableStatusInRange :
    (k : Kind) → (status : k.Status) → Decidable (k.StatusInRange status)
  | descriptors, status => inferInstanceAs (Decidable (DescriptorStatus.InRange status))
  | releases, status => inferInstanceAs (Decidable (ReleaseStatus.InRange status))
  | replicaGroups, status => inferInstanceAs (Decidable (ReplicaGroupStatus.InRange status))
  | instances, status => inferInstanceAs (Decidable (InstanceStatus.InRange status))
  | autoscalers, status => inferInstanceAs (Decidable (AutoscalerStatus.InRange status))
  | builds, _ => inferInstanceAs (Decidable True)
  | appConfigs, _ => inferInstanceAs (Decidable True)
  | configMaps, _ => inferInstanceAs (Decidable True)
  | trafficSplits, _ => inferInstanceAs (Decidable True)

theorem spec_lossless : (k : Kind) → Lossless k.SpecInRange k.specToJson k.specOfJson?
  | descriptors => DescriptorSpec.lossless
  | builds => BuildSpec.lossless
  | releases => ReleaseSpec.lossless
  | replicaGroups => ReplicaGroupSpec.lossless
  | instances => InstanceSpec.lossless
  | autoscalers => AutoscalerSpec.lossless
  | appConfigs => AppConfigSpec.lossless
  | configMaps => ConfigMapSpec.lossless
  | trafficSplits => TrafficSplitSpec.lossless

theorem noStatus_lossless : Lossless Any (fun _ => .null) noStatus? :=
  ⟨fun _ => .null, fun _ => rfl⟩

theorem status_lossless : (k : Kind) → Lossless k.StatusInRange k.statusToJson k.statusOfJson?
  | descriptors => DescriptorStatus.lossless
  | releases => ReleaseStatus.lossless
  | replicaGroups => ReplicaGroupStatus.lossless
  | instances => InstanceStatus.lossless
  | autoscalers => AutoscalerStatus.lossless
  | builds => noStatus_lossless
  | appConfigs => noStatus_lossless
  | configMaps => noStatus_lossless
  | trafficSplits => noStatus_lossless

end Kind

/-! ## Metadata -/

/-- The time and the versions fit. -/
@[mk_iff] structure Meta.InRange (m : Meta) : Prop where
  createdAt : m.createdAt < Width.bits64
  specVersion : m.specVersion < Width.bits64
  statusVersion : m.statusVersion < Width.bits64

instance Meta.decidableInRange (m : Meta) : Decidable m.InRange :=
  decidable_of_iff' _ (Meta.inRange_iff m)

/-- The owner is always written, as null when there is none. -/
theorem Meta.owner_lossless :
    Lossless (fun o => ∀ s ∈ o, Any s) (Json.option .str) (Json.option? Json.text?) :=
  Lossless.text.option fun _ => nofun

theorem Meta.lossless : Lossless InRange toJson ofJson? where
  plain _ := by simp [toJson, Lossless.text.dict.plain, Meta.owner_lossless.plain]
  reads fits := by
    simp [toJson, ofJson?, Lossless.text.dict.reads, Meta.owner_lossless.reads, fits.createdAt,
      fits.specVersion, fits.statusVersion]

/-! ## Objects -/

namespace Object

variable {k : Kind}

/-- The numbers of the metadata, the spec and the status fit. -/
@[mk_iff] structure InRange (o : Object k) : Prop where
  info : o.info.InRange
  spec : k.SpecInRange o.spec
  status : k.StatusInRange o.status

instance decidableInRange (o : Object k) : Decidable o.InRange :=
  decidable_of_iff' _ (inRange_iff o)

theorem lossless (k : Kind) : Lossless InRange toJson (ofJson? k) where
  plain fits := by
    simp [toJson, Meta.lossless.plain fits.info, k.spec_lossless.plain fits.spec,
      k.status_lossless.plain fits.status]
  reads fits := by
    simp [toJson, ofJson?, Meta.lossless.reads fits.info, k.spec_lossless.reads fits.spec,
      k.status_lossless.reads fits.status]

/-- The text that an object is stored as. -/
def text (o : Object k) : String := o.toJson.compact

/-- The object of a kind that a stored text stands for. -/
def ofText? (k : Kind) (text : String) : Option (Object k) :=
  (Json.parse? text).bind (ofJson? k)

/-- **An object whose numbers fit is decoded from its text as it was.** -/
theorem ofText?_text {o : Object k} (fits : o.InRange) : ofText? k o.text = some o := by
  rw [ofText?, text, parse?_compact ((lossless k).plain fits), Option.bind_some,
    (lossless k).reads fits]

end Object
end Cutover
