/-
# Cutover.Scaling.Binding -- which release an autoscaler steers

A descriptor has at most one autoscaler, named after its application, bound to the
active release, and only while no promotion is under way (`boundRelease?`).  A
scaler bound to another release goes before the new one comes, so two never steer
one descriptor's count.
-/
import Cutover.Descriptor
import Cutover.Labels
import Cutover.Store.Edit

namespace Cutover.Binding

set_option autoImplicit false

def scalerName (app : String) : String := app ++ "-scaler"

/-- The autoscaler of a descriptor for one of its releases: at least one instance,
and an upper bound that is not below the lower. -/
def autoscalerFor (d : Descriptor) (r : Release) : Autoscaler :=
  let least := max d.spec.scale.min 1
  { info := { Meta.fresh d.targetNamespace (scalerName d.spec.app) with
      labels := (Label.ofTarget d.spec.app d.spec.target).insert Label.release r.name
      owner := some d.key }
    spec := {
      release := r.name
      minReplicas := least
      maxReplicas := max d.spec.scale.max least
      targetUtilization := d.spec.scale.targetUtilization }
    status := default }

/-- The release that an autoscaler of the descriptor is to steer. -/
def boundRelease? (d : Descriptor) (rs : List Release) : Option Release :=
  if d.needsAutoscaler && !rs.any (·.spec.role = .target) then
    rs.find? (·.spec.role = .active)
  else none

def remove (a : Autoscaler) : Pass StoreError Unit :=
  Pass.write fun s => .ok ((), (s.delete .autoscalers a.info.ns a.info.name).2)

/-- Attach, rebind or detach the autoscaler of a descriptor.  The descriptor comes
back with the time of the last scaling, for its caller to store. -/
def reconcile (d : Descriptor) (rs : List Release) : Pass StoreError Descriptor := do
  let existing := (← getThe Store).matching .autoscalers
    (Selector.ofTarget d.spec.app d.spec.target)
  match boundRelease? d rs with
  | none =>
      existing.forM remove
      return d
  | some r =>
      (existing.filter fun a => a.label? Label.release != some r.name).forM remove
      let (scaler, _) ← Store.apply (autoscalerFor d r)
      return { d with status.lastScaledAt := scaler.status.lastScaleTime }

end Cutover.Binding
