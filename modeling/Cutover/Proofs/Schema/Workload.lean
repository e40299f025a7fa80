/-
# Cutover.Proofs.Schema.Workload -- replica groups, instances and autoscalers survive theirs

The objects of the workload runtime are written as plain JSON and read back as they were, if
their numbers fit.  How a container ended stands in two places: beside the tag of its state,
where its fields are spread, and as a value of its own; both are read by one reader, and the
tag is none of its names.
-/
import Cutover.Proofs.Schema.Container
import Cutover.Schema.Workload

namespace Cutover

set_option autoImplicit false

open Json

/-! ## Replica groups -/

/-- The numbers of the containers fit. -/
def PodTemplate.InRange (t : PodTemplate) : Prop := ∀ c ∈ t.containers, c.InRange

instance PodTemplate.decidableInRange (t : PodTemplate) : Decidable t.InRange :=
  inferInstanceAs (Decidable (∀ c ∈ t.containers, c.InRange))

theorem PodTemplate.lossless : Lossless InRange toJson ofJson? where
  plain fits := by
    simp [toJson, Lossless.text.dict.plain, Container.lossless.list.plain fits,
      Lossless.text.allPlain, Lossless.text.list.plain]
  reads fits := by
    simp [toJson, ofJson?, Lossless.text.dict.reads, Container.lossless.list.reads fits,
      Lossless.text.field, Lossless.text.list.reads]

/-- The count and the numbers of the template fit. -/
@[mk_iff] structure ReplicaGroupSpec.InRange (g : ReplicaGroupSpec) : Prop where
  replicas : g.replicas < Width.bits32
  template : g.template.InRange

instance ReplicaGroupSpec.decidableInRange (g : ReplicaGroupSpec) : Decidable g.InRange :=
  decidable_of_iff' _ (ReplicaGroupSpec.inRange_iff g)

theorem ReplicaGroupSpec.lossless : Lossless InRange toJson ofJson? where
  plain fits := by
    simp [toJson, Lossless.text.dict.plain, PodTemplate.lossless.plain fits.template]
  reads fits := by
    simp [toJson, ofJson?, fits.replicas, Lossless.text.dict.reads,
      PodTemplate.lossless.reads fits.template]

/-- The counts fit. -/
@[mk_iff] structure ReplicaGroupStatus.InRange (s : ReplicaGroupStatus) : Prop where
  replicas : s.replicas < Width.bits32
  readyReplicas : s.readyReplicas < Width.bits32
  availableReplicas : s.availableReplicas < Width.bits32

instance ReplicaGroupStatus.decidableInRange (s : ReplicaGroupStatus) : Decidable s.InRange :=
  decidable_of_iff' _ (ReplicaGroupStatus.inRange_iff s)

theorem ReplicaGroupStatus.lossless : Lossless InRange toJson ofJson? where
  plain _ := by simp [toJson]
  reads fits := by
    simp [toJson, ofJson?, fits.replicas, fits.readyReplicas, fits.availableReplicas]

/-! ## Instances -/

theorem InstancePhase.lossless : Lossless Any toJson ofJson? :=
  .choice fun p => by cases p <;> rfl

theorem InstanceCondition.lossless : Lossless Any toJson ofJson? where
  plain _ := by simp [toJson]
  reads _ := by simp [toJson, ofJson?]

/-- The exit code fits. -/
def Termination.InRange (t : Termination) : Prop := Width.isSigned Width.half32 t.exitCode = true

instance Termination.decidableInRange (t : Termination) : Decidable t.InRange :=
  inferInstanceAs (Decidable (_ = _))

theorem Termination.lossless : Lossless InRange toJson ofJson? where
  plain _ := by simp [toJson, fields]
  reads fits := by simp [toJson, fields, ofJson?, reader, int32?_int fits]

theorem Termination.toJson_ne_null (t : Termination) : t.toJson ≠ .null := nofun

/-- The exit code of a container that has ended fits. -/
def ContainerState.InRange : ContainerState → Prop
  | running => True
  | waiting _ _ => True
  | terminated t => t.InRange

instance ContainerState.decidableInRange : (s : ContainerState) → Decidable s.InRange
  | .running => inferInstanceAs (Decidable True)
  | .waiting _ _ => inferInstanceAs (Decidable True)
  | .terminated t => inferInstanceAs (Decidable t.InRange)

theorem ContainerState.lossless : Lossless InRange toJson ofJson? where
  plain {s} _ := by cases s <;> simp [toJson, Termination.fields]
  reads {s} fits := by
    cases s with
    | running => rfl
    | waiting reason message => simp [toJson, ofJson?, tagged?]
    | terminated t =>
        have code : int32? (.int t.exitCode) = some t.exitCode := int32?_int fits
        simp [toJson, ofJson?, tagged?, Termination.fields, Termination.reader, code]

/-- The exit codes of the container's state and of its last end, if there is one, fit. -/
@[mk_iff] structure ContainerStatus.InRange (s : ContainerStatus) : Prop where
  state : s.state.InRange
  lastTermination : ∀ t ∈ s.lastTermination, t.InRange

instance ContainerStatus.decidableInRange (s : ContainerStatus) : Decidable s.InRange :=
  decidable_of_iff' _ (ContainerStatus.inRange_iff s)

theorem ContainerStatus.lossless : Lossless InRange toJson ofJson? where
  plain fits := by
    simp [toJson, ContainerState.lossless.plain fits.state,
      Termination.lossless.allPlain fits.lastTermination]
  reads fits := by
    simp [toJson, ofJson?, ContainerState.lossless.reads fits.state,
      Termination.lossless.field Termination.toJson_ne_null fits.lastTermination]

theorem InstanceSpec.lossless : Lossless Any toJson ofJson? where
  plain _ := by simp [toJson, Lossless.text.allPlain]
  reads _ := by simp [toJson, ofJson?, Lossless.text.field]

/-- The exit codes and the CPU use, if there is one, fit. -/
@[mk_iff] structure InstanceStatus.InRange (s : InstanceStatus) : Prop where
  containers : ∀ c ∈ s.containerStatuses, c.InRange
  cpuUtilization : ∀ n ∈ s.cpuUtilization, n < Width.bits32

instance InstanceStatus.decidableInRange (s : InstanceStatus) : Decidable s.InRange :=
  decidable_of_iff' _ (InstanceStatus.inRange_iff s)

theorem InstanceStatus.lossless : Lossless InRange toJson ofJson? where
  plain fits := by
    simp [toJson, InstancePhase.lossless.plain, InstanceCondition.lossless.list.plain,
      ContainerStatus.lossless.list.plain fits.containers,
      Lossless.nat32.allPlain fits.cpuUtilization]
  reads fits := by
    simp [toJson, ofJson?, InstancePhase.lossless.reads, InstanceCondition.lossless.list.reads,
      ContainerStatus.lossless.list.reads fits.containers,
      Lossless.nat32.field (fun _ => nofun) fits.cpuUtilization]

/-! ## Autoscalers -/

/-- The bounds and the aim fit. -/
@[mk_iff] structure AutoscalerSpec.InRange (a : AutoscalerSpec) : Prop where
  minReplicas : a.minReplicas < Width.bits32
  maxReplicas : a.maxReplicas < Width.bits32
  targetUtilization : a.targetUtilization < Width.bits32

instance AutoscalerSpec.decidableInRange (a : AutoscalerSpec) : Decidable a.InRange :=
  decidable_of_iff' _ (AutoscalerSpec.inRange_iff a)

theorem AutoscalerSpec.lossless : Lossless InRange toJson ofJson? where
  plain _ := by simp [toJson]
  reads fits := by
    simp [toJson, ofJson?, fits.minReplicas, fits.maxReplicas, fits.targetUtilization]

/-- The time, if there is one, and the counts fit. -/
@[mk_iff] structure AutoscalerStatus.InRange (s : AutoscalerStatus) : Prop where
  lastScaleTime : ∀ n ∈ s.lastScaleTime, n < Width.bits64
  currentReplicas : s.currentReplicas < Width.bits32
  desiredReplicas : s.desiredReplicas < Width.bits32

instance AutoscalerStatus.decidableInRange (s : AutoscalerStatus) : Decidable s.InRange :=
  decidable_of_iff' _ (AutoscalerStatus.inRange_iff s)

theorem AutoscalerStatus.lossless : Lossless InRange toJson ofJson? where
  plain fits := by simp [toJson, Lossless.nat64.allPlain fits.lastScaleTime]
  reads fits := by
    simp [toJson, ofJson?, Lossless.nat64.field (fun _ => nofun) fits.lastScaleTime,
      fits.currentReplicas, fits.desiredReplicas]

end Cutover
