/-
# Cutover.Release.Workload -- the replica group of a release

A release asks for a replica group of its own name whose instances run its build's
image.  The environment starts with the entries of the release's config map in key
order; then every declared dependency adds an address for each of its ports, or for
the one port that is named.
-/
import Cutover.Configuration

namespace Cutover

set_option autoImplicit false

/-- Why a release pass fails. -/
inductive ReleaseError where
  | missingBuild (build : String)
  | missingDependency (app target : String)
  | store (e : StoreError)
  deriving DecidableEq

namespace ReleaseError

def message : ReleaseError → String
  | missingBuild build => "build not found: " ++ build
  | missingDependency app target => "dependency " ++ app ++ " not found in target " ++ target
  | store e => "state store error: " ++ e.message

end ReleaseError

namespace Workload

/-- The name of a service inside the cluster. -/
def hostname (ns service : String) : String := service ++ "." ++ ns ++ ".svc.cluster.local"

/-- The labels of a release's replica group and of every instance of it. -/
def labelsOf (r : Release) : Dict String :=
  ((Label.ofTarget r.spec.app r.spec.target).insert Label.release r.name).insert Label.build
    r.spec.build

/-- The address variable of one port of a dependency. -/
def addressOf (app host : String) (p : Port) : EnvVar :=
  { name := EnvVar.normalizeName app ++ "_" ++ EnvVar.normalizeName p.name ++ "_HOST"
    value := host ++ ":" ++ toString p.port }

/-- The variables of one dependency. -/
def addresses (s : Store) (r : Release) (dep : Dependency) : Except ReleaseError (List EnvVar) :=
  let target := dep.target.getD r.spec.target
  match s.get .descriptors "" (DescriptorSpec.scopedName dep.name target) with
  | none => .error (.missingDependency dep.name target)
  | some d =>
      let ports := d.spec.runtime.ports.filter fun p => dep.port.all (· = p.name)
      .ok (ports.map (addressOf dep.name (hostname d.targetNamespace dep.name)))

/-- The variables of all dependencies, in the order they are declared. -/
def dependencyEnv (s : Store) (r : Release) : Except ReleaseError (List EnvVar) :=
  (r.spec.runtime.dependencies.mapM (addresses s r)).map List.flatten

/-- The variables of a config map, in key order. -/
def configEnv (config : Option ConfigMap) : List EnvVar :=
  match config with
  | some c => c.spec.data.entries.map fun entry => ⟨entry.1, entry.2⟩
  | none => []

def containerFor (r : Release) (build : Build) (env : List EnvVar) : Container :=
  let runtime := r.spec.runtime
  { name := r.spec.app
    image := build.spec.reference
    command := runtime.command
    args := runtime.args
    env
    ports := runtime.ports
    resources := runtime.resources
    livenessProbe := runtime.probes.liveness
    readinessProbe := runtime.probes.readiness
    startupProbe := runtime.probes.startup }

/-- The replica group a release asks for. -/
def groupFor (r : Release) (build : Build) (config : Option ConfigMap)
    (dependencies : List EnvVar) : ReplicaGroup :=
  let labels := labelsOf r
  { info := { Meta.fresh r.info.ns r.name with labels, owner := some r.key }
    spec := {
      replicas := r.spec.numDesired
      selector := labels
      template := {
        labels
        containers := [containerFor r build (configEnv config ++ dependencies)]
        serviceAccount := r.spec.runtime.serviceAccount
        imagePullSecrets := r.spec.runtime.imagePullSecrets } }
    status := default }

end Workload
end Cutover
