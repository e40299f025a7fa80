/-
# Cutover.Descriptor -- what a descriptor asks for

The counts, times and names that follow from a descriptor alone, and the
fingerprint of its container-shaping part.  The desired count follows the count
that the status last took over from the settled release, within the bounds of the
scale, so that what an autoscaler decided is kept.
-/
import Cutover.Json.Printer
import Cutover.Schema.Object

namespace Cutover

set_option autoImplicit false

namespace DescriptorSpec

/-- The conventional name of the descriptor of an application in a target. -/
def scopedName (app target : String) : String := app ++ "-" ++ target

/-- The part of a descriptor that shapes the running container.  Scale, ingress and
deploy mode change how a release is run, not what it is. -/
def shape (d : DescriptorSpec) : Json :=
  .obj [
    ("app", .str d.app),
    ("target", .str d.target),
    ("build", .str d.build),
    ("runtime", d.runtime.toJson),
    ("configs", Json.list .str d.configs)]

/-- The digest of the shape's compact text. -/
def fingerprint (d : DescriptorSpec) : String := Digest.hexOfText d.shape.compact

end DescriptorSpec

namespace Object

/-- The namespace of everything a descriptor owns. -/
def targetNamespace (d : Descriptor) : String := d.spec.target

/-- The instance count to converge on.  A halted descriptor wants none; an upper
bound below the lower one counts as equal to it. -/
def desiredInstances (d : Descriptor) : Nat :=
  match d.spec.deployMode with
  | .halt => 0
  | .latest =>
      min (max d.spec.scale.min d.status.numDesired) (max d.spec.scale.max d.spec.scale.min)

/-- Whether traffic is routed to the application. -/
def needsService (d : Descriptor) : Bool := !d.spec.runtime.ports.isEmpty

def needsAutoscaler (d : Descriptor) : Bool :=
  d.spec.runtime.resources.requests.cpu.isSome && d.spec.scale.targetUtilization > 0 &&
    d.spec.scale.min != d.spec.scale.max

def readinessTimeout (d : Descriptor) : Nat := d.spec.runtime.probes.readinessTimeout

end Object
end Cutover
