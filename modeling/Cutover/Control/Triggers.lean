/-
# Cutover.Control.Triggers -- which keys a change wakes

Descriptors are looked at by the deployment controller, releases by the release
controller.  Derived objects lead back to what they came from through their owner or
the release label; a build wakes the descriptors that name it, an app config those
it is published for (`wakes`).  Config maps and traffic splits are written by the
deployment passes themselves and wake nothing.
-/
import Cutover.Control.Controller
import Cutover.Store.Basic

namespace Cutover.Control

set_option autoImplicit false

/-- A key that one of the two controllers is to look at. -/
inductive Wake where
  | deployment (key : String)
  | release (key : String)
  deriving DecidableEq

namespace Wake

/-- The descriptors that satisfy a condition. -/
def descriptors (s : Store) (affected : Descriptor → Bool) : List Wake :=
  ((s.list .descriptors).filter affected).map fun d => deployment d.key

/-- The release a workload object belongs to: the owner of a replica group, or the
release label in the object's own namespace. -/
def owningRelease? (e : Event) : Option String :=
  let labelled := (e.labels.get? Label.release).map fun release =>
    objectKey (splitKey e.key).1 release
  if e.kind = .replicaGroups then e.owner.or labelled else labelled

/-- Whether an app config with some labels is published for a descriptor. -/
def isPublishedFor (labels : Dict String) (d : Descriptor) : Bool :=
  labels.get? Label.app = some d.spec.app ||
    (labels.get? Label.sharedConfig).any fun name => d.spec.configs.contains name

/-- The keys that an event wakes, in the order they are enqueued. -/
def ofEvent (s : Store) (e : Event) : List Wake :=
  match e.kind with
  | .descriptors => [deployment e.key]
  | .releases => release e.key :: (e.owner.map deployment).toList
  | .replicaGroups => ((owningRelease? e).map release).toList
  | .instances => ((owningRelease? e).map release).toList
  | .autoscalers => (e.owner.map deployment).toList
  | .builds => descriptors s fun d => d.spec.build = (splitKey e.key).2
  | .appConfigs => descriptors s (isPublishedFor e.labels)
  | .configMaps => []
  | .trafficSplits => []

/-- Every descriptor and every release. -/
def everything (s : Store) : List Wake :=
  ((s.list .descriptors).map fun d => deployment d.key) ++
    (s.list .releases).map fun r => release r.key

end Wake

/-- The two controllers. -/
structure Controllers where
  deployments : Controller
  releases : Controller
  deriving DecidableEq

namespace Controllers

def fresh (pacing : Pacing) : Controllers := ⟨.fresh pacing, .fresh pacing⟩

def wake (c : Controllers) : Wake → Controllers
  | .deployment key => { c with deployments := c.deployments.enqueue key }
  | .release key => { c with releases := c.releases.enqueue key }

def wakeAll (c : Controllers) (wakes : List Wake) : Controllers := wakes.foldl wake c

/-- Enqueue what an event affects. -/
def route (c : Controllers) (s : Store) (e : Event) : Controllers := c.wakeAll (Wake.ofEvent s e)

/-- Enqueue every descriptor and every release. -/
def resync (c : Controllers) (s : Store) : Controllers := c.wakeAll (Wake.everything s)

end Controllers
end Cutover.Control
