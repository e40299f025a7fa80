/-
# Cutover.Labels -- well-known labels and label queries

Labels tie derived objects to the application, target, release and build they
belong to, and record the fingerprints a release was cut from.  A `Selector` asks
for labels with given values; it is answered by `Selector.accepts`.
-/
import Cutover.Dict

namespace Cutover

set_option autoImplicit false

/-! ## Queries -/

/-- An equality query on labels: every term must be among them. -/
structure Selector where
  terms : Dict String
  deriving DecidableEq, Inhabited

namespace Selector

def any : Selector := ⟨∅⟩

/-- Require one more label to have a value. -/
def require (s : Selector) (label value : String) : Selector := ⟨s.terms.insert label value⟩

def isEmpty (s : Selector) : Bool := s.terms.isEmpty

def accepts (s : Selector) (labels : Dict String) : Bool :=
  s.terms.entries.all fun term => labels.get? term.1 = some term.2

end Selector

/-! ## Names -/

namespace Label

def app : String := "flotilla.dev/app"

def target : String := "flotilla.dev/target"

def build : String := "flotilla.dev/build"

def release : String := "flotilla.dev/release"

def sharedConfig : String := "flotilla.dev/sharedConfig"

/-- Fingerprint of the descriptor fields that shape the running container. -/
def targetHash : String := "flotilla.dev/targetHash"

/-- Content hash of the configuration a release was cut from. -/
def configHash : String := "flotilla.dev/configHash"

/-- Present, with value 1, on a release in promotion only.  Where it is absent
from the active release an autoscaler may own the instance count. -/
def promotionTarget : String := "flotilla.dev/promotionTarget"

def managedBy : String := "app.kubernetes.io/managed-by"

def manager : String := "flotilla"

/-- The labels of everything derived from one descriptor. -/
def ofTarget (app target : String) : Dict String :=
  Dict.ofList [(Label.app, app), (Label.target, target), (managedBy, manager)]

end Label

/-- Selects everything derived from one descriptor. -/
def Selector.ofTarget (app target : String) : Selector :=
  (any.require Label.app app).require Label.target target

/-- Selects the workload objects of one release. -/
def Selector.ofRelease (release : String) : Selector := any.require Label.release release

end Cutover
