/-
# Cutover.Proofs.Schema.Container -- containers survive their JSON form

Each type that shapes a container is written as plain JSON and read back as it was, if its
numbers fit the widths they are stored in (`InRange`).  A probe handler stands beside its
tag, which none of its own fields is called; optional fields are left out when they are
unset, and read as unset when they are left out.
-/
import Cutover.Proofs.Json.Record
import Cutover.Schema.Container
import Mathlib.Tactic.MkIffOfInductiveProp

namespace Cutover

set_option autoImplicit false

open Json

/-! ## Ports -/

theorem Protocol.lossless : Lossless Any Protocol.toJson Protocol.ofJson? :=
  .choice fun p => by cases p <;> rfl

/-- The number fits its width. -/
def Port.InRange (p : Port) : Prop := p.port < Width.bits16

instance Port.decidableInRange (p : Port) : Decidable p.InRange :=
  inferInstanceAs (Decidable (_ < _))

theorem Port.lossless : Lossless InRange toJson ofJson? where
  plain _ := by simp [toJson, Protocol.lossless.plain]
  reads fits := by simp [toJson, ofJson?, Protocol.lossless.reads, nat16?_nat fits]

/-! ## Resources -/

theorem ResourceList.lossless : Lossless Any toJson ofJson? where
  plain _ := by simp [toJson, Lossless.text.allPlain]
  reads _ := by simp [toJson, ofJson?, Lossless.text.field]

theorem Resources.lossless : Lossless Any toJson ofJson? where
  plain _ := by simp [toJson, ResourceList.lossless.plain]
  reads _ := by simp [toJson, ofJson?, ResourceList.lossless.reads]

/-! ## Probes -/

theorem ProbeHandler.lossless : Lossless Any toJson ofJson? where
  plain {p} _ := by cases p <;> simp [toJson, Lossless.text.list.plain]
  reads {p} _ := by cases p <;> simp [toJson, ofJson?, tagged?, Lossless.text.list.reads]

/-- The numbers fit their width. -/
@[mk_iff] structure Probe.InRange (p : Probe) : Prop where
  initialDelay : p.initialDelay < Width.bits32
  timeout : p.timeout < Width.bits32
  period : p.period < Width.bits32
  successThreshold : p.successThreshold < Width.bits32
  failureThreshold : p.failureThreshold < Width.bits32

instance Probe.decidableInRange (p : Probe) : Decidable p.InRange :=
  decidable_of_iff' _ (Probe.inRange_iff p)

theorem Probe.lossless : Lossless InRange toJson ofJson? where
  plain _ := by simp [toJson, ProbeHandler.lossless.plain]
  reads fits := by
    simp [toJson, ofJson?, ProbeHandler.lossless.reads, fits.initialDelay, fits.timeout,
      fits.period, fits.successThreshold, fits.failureThreshold]

theorem Probe.toJson_ne_null (p : Probe) : p.toJson ≠ .null := nofun

/-- The numbers of the probes there are fit. -/
@[mk_iff] structure Probes.InRange (p : Probes) : Prop where
  liveness : ∀ probe ∈ p.liveness, probe.InRange
  readiness : ∀ probe ∈ p.readiness, probe.InRange
  startup : ∀ probe ∈ p.startup, probe.InRange

instance Probes.decidableInRange (p : Probes) : Decidable p.InRange :=
  decidable_of_iff' _ (Probes.inRange_iff p)

theorem Probes.lossless : Lossless InRange toJson ofJson? where
  plain fits := by
    simp [toJson, Probe.lossless.allPlain fits.liveness, Probe.lossless.allPlain fits.readiness,
      Probe.lossless.allPlain fits.startup]
  reads fits := by
    simp [toJson, ofJson?, Probe.lossless.field Probe.toJson_ne_null fits.liveness,
      Probe.lossless.field Probe.toJson_ne_null fits.readiness,
      Probe.lossless.field Probe.toJson_ne_null fits.startup]

/-! ## The shape of a container -/

theorem Dependency.lossless : Lossless Any toJson ofJson? where
  plain _ := by simp [toJson, Lossless.text.allPlain]
  reads _ := by simp [toJson, ofJson?, Lossless.text.field]

/-- The numbers of the ports and probes fit. -/
@[mk_iff] structure Runtime.InRange (r : Runtime) : Prop where
  ports : ∀ p ∈ r.ports, p.InRange
  probes : r.probes.InRange

instance Runtime.decidableInRange (r : Runtime) : Decidable r.InRange :=
  decidable_of_iff' _ (Runtime.inRange_iff r)

theorem Runtime.lossless : Lossless InRange toJson ofJson? where
  plain fits := by
    simp [toJson, Port.lossless.list.plain fits.ports, Lossless.text.list.plain,
      Dependency.lossless.list.plain, Lossless.text.allPlain, Resources.lossless.plain,
      Probes.lossless.plain fits.probes]
  reads fits := by
    simp [toJson, ofJson?, Port.lossless.list.reads fits.ports, Lossless.text.list.reads,
      Dependency.lossless.list.reads, Lossless.text.field, Resources.lossless.reads,
      Probes.lossless.reads fits.probes]

/-! ## Containers -/

theorem EnvVar.lossless : Lossless Any toJson ofJson? where
  plain _ := by simp [toJson]
  reads _ := by simp [toJson, ofJson?]

/-- The numbers of the ports and of the probes there are fit. -/
@[mk_iff] structure Container.InRange (c : Container) : Prop where
  ports : ∀ p ∈ c.ports, p.InRange
  liveness : ∀ probe ∈ c.livenessProbe, probe.InRange
  readiness : ∀ probe ∈ c.readinessProbe, probe.InRange
  startup : ∀ probe ∈ c.startupProbe, probe.InRange

instance Container.decidableInRange (c : Container) : Decidable c.InRange :=
  decidable_of_iff' _ (Container.inRange_iff c)

theorem Container.lossless : Lossless InRange toJson ofJson? where
  plain fits := by
    simp [toJson, Lossless.text.list.plain, EnvVar.lossless.list.plain,
      Port.lossless.list.plain fits.ports, Resources.lossless.plain,
      Probe.lossless.allPlain fits.liveness, Probe.lossless.allPlain fits.readiness,
      Probe.lossless.allPlain fits.startup]
  reads fits := by
    simp [toJson, ofJson?, Lossless.text.list.reads, EnvVar.lossless.list.reads,
      Port.lossless.list.reads fits.ports, Resources.lossless.reads,
      Probe.lossless.field Probe.toJson_ne_null fits.liveness,
      Probe.lossless.field Probe.toJson_ne_null fits.readiness,
      Probe.lossless.field Probe.toJson_ne_null fits.startup]

end Cutover
