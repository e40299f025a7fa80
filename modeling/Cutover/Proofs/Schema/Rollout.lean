/-
# Cutover.Proofs.Schema.Rollout -- what is deployed survives its JSON form

Builds, published and materialised configuration, descriptors, releases and traffic splits
are written as plain JSON and read back as they were, if their numbers fit.
-/
import Cutover.Proofs.Schema.Container
import Cutover.Schema.Build
import Cutover.Schema.Configuration
import Cutover.Schema.Descriptor
import Cutover.Schema.Routing

namespace Cutover

set_option autoImplicit false

open Json

/-! ## Builds -/

/-- The time fits. -/
def BuildSpec.InRange (b : BuildSpec) : Prop := b.createdAt < Width.bits64

instance BuildSpec.decidableInRange (b : BuildSpec) : Decidable b.InRange :=
  inferInstanceAs (Decidable (_ < _))

theorem BuildSpec.lossless : Lossless InRange toJson ofJson? where
  plain _ := by simp [toJson]
  reads fits := by simp [toJson, ofJson?, nat64?_nat fits]

/-! ## Configuration -/

theorem ConfigType.lossless : Lossless Any toJson ofJson? :=
  .choice fun t => by cases t <;> rfl

theorem AppConfigSpec.lossless : Lossless Any toJson ofJson? where
  plain _ := by simp [toJson, ConfigType.lossless.plain, Lossless.text.dict.plain]
  reads _ := by simp [toJson, ofJson?, ConfigType.lossless.reads, Lossless.text.dict.reads]

theorem ConfigMapSpec.lossless : Lossless Any toJson ofJson? where
  plain _ := by simp [toJson, Lossless.text.dict.plain]
  reads _ := by simp [toJson, ofJson?, Lossless.text.dict.reads]

/-! ## Descriptors -/

theorem DeployMode.lossless : Lossless Any toJson ofJson? :=
  .choice fun m => by cases m <;> rfl

/-- The bounds and the aim fit. -/
@[mk_iff] structure Scale.InRange (s : Scale) : Prop where
  min : s.min < Width.bits32
  max : s.max < Width.bits32
  targetUtilization : s.targetUtilization < Width.bits32

instance Scale.decidableInRange (s : Scale) : Decidable s.InRange :=
  decidable_of_iff' _ (Scale.inRange_iff s)

theorem Scale.lossless : Lossless InRange toJson ofJson? where
  plain _ := by simp [toJson]
  reads fits := by simp [toJson, ofJson?, fits.min, fits.max, fits.targetUtilization]

theorem Ingress.lossless : Lossless Any toJson ofJson? where
  plain _ := by simp [toJson, Lossless.text.list.plain, Lossless.text.allPlain]
  reads _ := by simp [toJson, ofJson?, Lossless.text.list.reads, Lossless.text.field]

theorem Ingress.toJson_ne_null (i : Ingress) : i.toJson ≠ .null := nofun

/-- The numbers of the container's shape and of the scale fit. -/
@[mk_iff] structure DescriptorSpec.InRange (d : DescriptorSpec) : Prop where
  runtime : d.runtime.InRange
  scale : d.scale.InRange

instance DescriptorSpec.decidableInRange (d : DescriptorSpec) : Decidable d.InRange :=
  decidable_of_iff' _ (DescriptorSpec.inRange_iff d)

theorem DescriptorSpec.lossless : Lossless InRange toJson ofJson? where
  plain fits := by
    simp [toJson, DeployMode.lossless.plain, Runtime.lossless.plain fits.runtime,
      Lossless.text.list.plain, Scale.lossless.plain fits.scale, Ingress.lossless.allPlain]
  reads fits := by
    simp [toJson, ofJson?, DeployMode.lossless.reads, Runtime.lossless.reads fits.runtime,
      Lossless.text.list.reads, Scale.lossless.reads fits.scale,
      Ingress.lossless.field Ingress.toJson_ne_null]

theorem DeployPhase.lossless : Lossless Any toJson ofJson? :=
  .choice fun p => by cases p <;> rfl

/-- The times and counts fit. -/
@[mk_iff] structure DescriptorStatus.InRange (s : DescriptorStatus) : Prop where
  deployUpdatedAt : s.deployUpdatedAt < Width.bits64
  lastScaledAt : ∀ n ∈ s.lastScaledAt, n < Width.bits64
  numDesired : s.numDesired < Width.bits32
  numReady : s.numReady < Width.bits32
  numAvailable : s.numAvailable < Width.bits32

instance DescriptorStatus.decidableInRange (s : DescriptorStatus) : Decidable s.InRange :=
  decidable_of_iff' _ (DescriptorStatus.inRange_iff s)

theorem DescriptorStatus.lossless : Lossless InRange toJson ofJson? where
  plain fits := by
    simp [toJson, DeployPhase.lossless.plain, Lossless.nat64.allPlain fits.lastScaledAt]
  reads fits := by
    simp [toJson, ofJson?, DeployPhase.lossless.reads, fits.deployUpdatedAt,
      Lossless.nat64.field (fun _ => nofun) fits.lastScaledAt, fits.numDesired, fits.numReady,
      fits.numAvailable]

/-! ## Releases -/

theorem ReleaseRole.lossless : Lossless Any toJson ofJson? :=
  .choice fun r => by cases r <;> rfl

theorem ReleaseState.lossless : Lossless Any toJson ofJson? :=
  .choice fun s => by cases s <;> rfl

/-- The count, the share of traffic and the numbers of the container's shape fit. -/
@[mk_iff] structure ReleaseSpec.InRange (r : ReleaseSpec) : Prop where
  numDesired : r.numDesired < Width.bits32
  traffic : r.traffic < Width.bits32
  runtime : r.runtime.InRange

instance ReleaseSpec.decidableInRange (r : ReleaseSpec) : Decidable r.InRange :=
  decidable_of_iff' _ (ReleaseSpec.inRange_iff r)

theorem ReleaseSpec.lossless : Lossless InRange toJson ofJson? where
  plain fits := by
    simp [toJson, ReleaseRole.lossless.plain, Runtime.lossless.plain fits.runtime]
  reads fits := by
    simp [toJson, ofJson?, fits.numDesired, ReleaseRole.lossless.reads, fits.traffic,
      Runtime.lossless.reads fits.runtime]

theorem PodError.lossless : Lossless Any toJson ofJson? where
  plain _ := by simp [toJson]
  reads _ := by simp [toJson, ofJson?]

/-- The time and the counts fit. -/
@[mk_iff] structure ReleaseStatus.InRange (s : ReleaseStatus) : Prop where
  stateChangedAt : s.stateChangedAt < Width.bits64
  numDesired : s.numDesired < Width.bits32
  numReady : s.numReady < Width.bits32
  numAvailable : s.numAvailable < Width.bits32

instance ReleaseStatus.decidableInRange (s : ReleaseStatus) : Decidable s.InRange :=
  decidable_of_iff' _ (ReleaseStatus.inRange_iff s)

/-- A list of errors that is left out when it is empty is read as the empty one. -/
theorem ReleaseStatus.lossless : Lossless InRange toJson ofJson? where
  plain {s} _ := by
    cases none_ : s.podErrors.isEmpty <;>
      simp [toJson, none_, ReleaseState.lossless.plain, PodError.lossless.list.plain]
  reads {s} fits := by
    obtain ⟨state, stateChangedAt, numDesired, numReady, numAvailable, podErrors⟩ := s
    cases podErrors <;>
      simp [toJson, ofJson?, ReleaseState.lossless.reads, fits.stateChangedAt, fits.numDesired,
        fits.numReady, fits.numAvailable, PodError.lossless.list.reads]

/-! ## Traffic splits -/

/-- The weight and the numbers of the ports fit. -/
@[mk_iff] structure WeightedRoute.InRange (r : WeightedRoute) : Prop where
  weight : r.weight < Width.bits32
  ports : ∀ p ∈ r.ports, p.InRange

instance WeightedRoute.decidableInRange (r : WeightedRoute) : Decidable r.InRange :=
  decidable_of_iff' _ (WeightedRoute.inRange_iff r)

theorem WeightedRoute.lossless : Lossless InRange toJson ofJson? where
  plain fits := by
    simp [toJson, ReleaseRole.lossless.plain, Port.lossless.list.plain fits.ports]
  reads fits := by
    simp [toJson, ofJson?, ReleaseRole.lossless.reads, fits.weight,
      Port.lossless.list.reads fits.ports]

/-- The numbers of the routes fit. -/
def TrafficSplitSpec.InRange (s : TrafficSplitSpec) : Prop := ∀ r ∈ s.routes, r.InRange

instance TrafficSplitSpec.decidableInRange (s : TrafficSplitSpec) : Decidable s.InRange :=
  inferInstanceAs (Decidable (∀ r ∈ s.routes, r.InRange))

theorem TrafficSplitSpec.lossless : Lossless InRange toJson ofJson? where
  plain fits := by simp [toJson, WeightedRoute.lossless.list.plain fits]
  reads fits := by simp [toJson, ofJson?, WeightedRoute.lossless.list.reads fits]

end Cutover
