/-
# Cutover.Routing -- publishing the traffic split

The split of a descriptor lists its releases that take traffic, in the order of
the list it is made from, each with its role, weight and ports.  It is stored
under the application's name in the target's namespace.
-/
import Cutover.Descriptor
import Cutover.Labels
import Cutover.Store.Edit

namespace Cutover.Routing

set_option autoImplicit false

def route (r : Release) : WeightedRoute :=
  { release := r.name, role := r.spec.role, weight := r.spec.traffic, ports := r.spec.runtime.ports }

def splitFor (d : Descriptor) (rs : List Release) : TrafficSplit :=
  { info := { Meta.fresh d.targetNamespace d.spec.app with
      labels := Label.ofTarget d.spec.app d.spec.target
      owner := some d.key }
    spec := {
      app := d.spec.app
      target := d.spec.target
      routes := (rs.filter fun r => r.spec.traffic > 0).map route }
    status := () }

/-- Store the split; whether it changed. -/
def publish (d : Descriptor) (rs : List Release) : Pass StoreError Bool := do
  let (_, changed) ← Store.apply (splitFor d rs)
  return changed

end Cutover.Routing
