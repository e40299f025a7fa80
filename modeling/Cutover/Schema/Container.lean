/-
# Cutover.Schema.Container -- what shapes a running container

Ports, resources, probes and environment variables, and the `Runtime` that a
descriptor declares and every release copies when it is cut.  Each type comes
with its JSON form: `toJson` lists the fields in declaration order and leaves out
optional ones that are unset, `ofJson?` reads that form back.
-/
import Cutover.Json.Record

namespace Cutover

set_option autoImplicit false

/-! ## Ports -/

inductive Protocol where
  | tcp
  | udp
  deriving DecidableEq, Inhabited

namespace Protocol

def names : List (String × Protocol) := [("TCP", tcp), ("UDP", udp)]

def name : Protocol → String
  | tcp => "TCP"
  | udp => "UDP"

def toJson (p : Protocol) : Json := .str p.name

def ofJson? : Json → Option Protocol := Json.choice? names

end Protocol

structure Port where
  name : String
  port : Nat
  protocol : Protocol
  deriving DecidableEq, Inhabited

namespace Port

def toJson (p : Port) : Json :=
  .obj [("name", .str p.name), ("port", .nat p.port), ("protocol", p.protocol.toJson)]

open Json.Reader in
def ofJson? : Json → Option Port := read? do
  return {
    name := ← required "name" Json.text?
    port := ← required "port" Json.nat16?
    protocol := ← defaulted "protocol" .tcp Protocol.ofJson? }

end Port

/-! ## Resources -/

/-- Quantities in the usual suffix notation, such as 250m or 512Mi. -/
structure ResourceList where
  cpu : Option String
  memory : Option String
  deriving DecidableEq, Inhabited

namespace ResourceList

def toJson (r : ResourceList) : Json :=
  .obj (Json.optional "cpu" .str r.cpu ++ Json.optional "memory" .str r.memory)

open Json.Reader in
def ofJson? : Json → Option ResourceList := read? do
  return {
    cpu := ← optional "cpu" Json.text?
    memory := ← optional "memory" Json.text? }

end ResourceList

structure Resources where
  requests : ResourceList
  limits : ResourceList
  deriving DecidableEq, Inhabited

namespace Resources

def toJson (r : Resources) : Json :=
  .obj [("requests", r.requests.toJson), ("limits", r.limits.toJson)]

open Json.Reader in
def ofJson? : Json → Option Resources := read? do
  return {
    requests := ← defaulted "requests" default ResourceList.ofJson?
    limits := ← defaulted "limits" default ResourceList.ofJson? }

end Resources

/-! ## Probes -/

/-- How a probe looks at a container. -/
inductive ProbeHandler where
  | exec (command : List String)
  | httpGet (path port : String)
  | tcpSocket (port : String)
  deriving DecidableEq, Inhabited

namespace ProbeHandler

def toJson : ProbeHandler → Json
  | exec command => .obj [("type", .str "exec"), ("command", Json.list .str command)]
  | httpGet path port =>
      .obj [("type", .str "http_get"), ("path", .str path), ("port", .str port)]
  | tcpSocket port => .obj [("type", .str "tcp_socket"), ("port", .str port)]

open Json.Reader in
def ofJson? (j : Json) : Option ProbeHandler := do
  let (tag, fields) ← j.tagged? "type"
  match tag with
  | "exec" =>
      ofRecord? (return .exec (← required "command" (Json.list? Json.text?))) fields
  | "http_get" =>
      ofRecord? (return .httpGet (← required "path" Json.text?) (← required "port" Json.text?))
        fields
  | "tcp_socket" => ofRecord? (return .tcpSocket (← required "port" Json.text?)) fields
  | _ => none

end ProbeHandler

structure Probe where
  handler : ProbeHandler
  initialDelay : Nat
  timeout : Nat
  period : Nat
  successThreshold : Nat
  failureThreshold : Nat
  deriving DecidableEq, Inhabited

namespace Probe

def toJson (p : Probe) : Json :=
  .obj [
    ("handler", p.handler.toJson),
    ("initial_delay_secs", .nat p.initialDelay),
    ("timeout_secs", .nat p.timeout),
    ("period_secs", .nat p.period),
    ("success_threshold", .nat p.successThreshold),
    ("failure_threshold", .nat p.failureThreshold)]

open Json.Reader in
def ofJson? : Json → Option Probe := read? do
  return {
    handler := ← required "handler" ProbeHandler.ofJson?
    initialDelay := ← defaulted "initial_delay_secs" 0 Json.nat32?
    timeout := ← defaulted "timeout_secs" 0 Json.nat32?
    period := ← defaulted "period_secs" 0 Json.nat32?
    successThreshold := ← defaulted "success_threshold" 0 Json.nat32?
    failureThreshold := ← defaulted "failure_threshold" 0 Json.nat32? }

end Probe

structure Probes where
  liveness : Option Probe
  readiness : Option Probe
  startup : Option Probe
  deriving DecidableEq, Inhabited

namespace Probes

def toJson (p : Probes) : Json :=
  .obj (Json.optional "liveness" Probe.toJson p.liveness ++
    Json.optional "readiness" Probe.toJson p.readiness ++
    Json.optional "startup" Probe.toJson p.startup)

open Json.Reader in
def ofJson? : Json → Option Probes := read? do
  return {
    liveness := ← optional "liveness" Probe.ofJson?
    readiness := ← optional "readiness" Probe.ofJson?
    startup := ← optional "startup" Probe.ofJson? }

/-- Seconds an instance is given to become ready when no readiness probe says
otherwise. -/
def defaultReadinessTimeout : Nat := 60

/-- Seconds an instance is given to become ready.  It is also the time between two
steps of a promotion and the time a release keeps its instances after its traffic
has gone.  A period and a timeout are added in 32 bits. -/
def readinessTimeout (p : Probes) : Nat :=
  match p.readiness with
  | some probe =>
      if probe.initialDelay > 0 then probe.initialDelay
      else if probe.period > 0 then (probe.period + probe.timeout) % Width.bits32
      else defaultReadinessTimeout
  | none => defaultReadinessTimeout

end Probes

/-! ## The shape of a container -/

/-- Another application this one talks to: in its own target unless another is
named, through all of its ports unless one is named. -/
structure Dependency where
  name : String
  target : Option String
  port : Option String
  deriving DecidableEq, Inhabited

namespace Dependency

def toJson (d : Dependency) : Json :=
  .obj (("name", .str d.name) ::
    (Json.optional "target" .str d.target ++ Json.optional "port" .str d.port))

open Json.Reader in
def ofJson? : Json → Option Dependency := read? do
  return {
    name := ← required "name" Json.text?
    target := ← optional "target" Json.text?
    port := ← optional "port" Json.text? }

end Dependency

/-- Everything that shapes the running container. -/
structure Runtime where
  ports : List Port
  command : List String
  args : List String
  dependencies : List Dependency
  serviceAccount : Option String
  imagePullSecrets : List String
  resources : Resources
  probes : Probes
  deriving DecidableEq, Inhabited

namespace Runtime

def toJson (r : Runtime) : Json :=
  .obj ([
    ("ports", Json.list Port.toJson r.ports),
    ("command", Json.list .str r.command),
    ("args", Json.list .str r.args),
    ("dependencies", Json.list Dependency.toJson r.dependencies)] ++
    Json.optional "service_account" .str r.serviceAccount ++ [
    ("image_pull_secrets", Json.list .str r.imagePullSecrets),
    ("resources", r.resources.toJson),
    ("probes", r.probes.toJson)])

open Json.Reader in
def ofJson? : Json → Option Runtime := read? do
  return {
    ports := ← defaulted "ports" [] (Json.list? Port.ofJson?)
    command := ← defaulted "command" [] (Json.list? Json.text?)
    args := ← defaulted "args" [] (Json.list? Json.text?)
    dependencies := ← defaulted "dependencies" [] (Json.list? Dependency.ofJson?)
    serviceAccount := ← optional "service_account" Json.text?
    imagePullSecrets := ← defaulted "image_pull_secrets" [] (Json.list? Json.text?)
    resources := ← defaulted "resources" default Resources.ofJson?
    probes := ← defaulted "probes" default Probes.ofJson? }

end Runtime

/-! ## Containers -/

structure EnvVar where
  name : String
  value : String
  deriving DecidableEq, Inhabited

namespace EnvVar

def toJson (v : EnvVar) : Json := .obj [("name", .str v.name), ("value", .str v.value)]

open Json.Reader in
def ofJson? : Json → Option EnvVar := read? do
  return {
    name := ← required "name" Json.text?
    value := ← required "value" Json.text? }

end EnvVar

structure Container where
  name : String
  image : String
  command : List String
  args : List String
  env : List EnvVar
  ports : List Port
  resources : Resources
  livenessProbe : Option Probe
  readinessProbe : Option Probe
  startupProbe : Option Probe
  deriving DecidableEq, Inhabited

namespace Container

def toJson (c : Container) : Json :=
  .obj ([
    ("name", .str c.name),
    ("image", .str c.image),
    ("command", Json.list .str c.command),
    ("args", Json.list .str c.args),
    ("env", Json.list EnvVar.toJson c.env),
    ("ports", Json.list Port.toJson c.ports),
    ("resources", c.resources.toJson)] ++
    Json.optional "liveness_probe" Probe.toJson c.livenessProbe ++
    Json.optional "readiness_probe" Probe.toJson c.readinessProbe ++
    Json.optional "startup_probe" Probe.toJson c.startupProbe)

open Json.Reader in
def ofJson? : Json → Option Container := read? do
  return {
    name := ← required "name" Json.text?
    image := ← required "image" Json.text?
    command := ← defaulted "command" [] (Json.list? Json.text?)
    args := ← defaulted "args" [] (Json.list? Json.text?)
    env := ← defaulted "env" [] (Json.list? EnvVar.ofJson?)
    ports := ← defaulted "ports" [] (Json.list? Port.ofJson?)
    resources := ← defaulted "resources" default Resources.ofJson?
    livenessProbe := ← optional "liveness_probe" Probe.ofJson?
    readinessProbe := ← optional "readiness_probe" Probe.ofJson?
    startupProbe := ← optional "startup_probe" Probe.ofJson? }

end Container
end Cutover
