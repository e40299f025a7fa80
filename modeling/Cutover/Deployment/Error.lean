/-
# Cutover.Deployment.Error -- why a deployment pass fails

An empty set of releases is a mistake of the caller; every other failure may pass
with time, so the pass is worth repeating.
-/
import Cutover.Store.Error

namespace Cutover

set_option autoImplicit false

inductive DeployError where
  | emptyReleaseSet (descriptor : String)
  | missingBuild (build : String)
  | store (e : StoreError)
  | autoscaler (e : StoreError)
  deriving DecidableEq

namespace DeployError

def message : DeployError → String
  | emptyReleaseSet descriptor => "cannot deploy empty release set for " ++ descriptor
  | missingBuild build => "build not found: " ++ build
  | store e => "state store error: " ++ e.message
  | autoscaler e => "autoscaler error: state store error: " ++ e.message

def isRetryable : DeployError → Bool
  | emptyReleaseSet _ => false
  | _ => true

end DeployError
end Cutover
