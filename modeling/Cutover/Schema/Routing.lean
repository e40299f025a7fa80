/-
# Cutover.Schema.Routing -- traffic splits

A traffic split lists the releases of one application in one target that receive
traffic, each with its weight in percent.
-/
import Cutover.Schema.Release

namespace Cutover

set_option autoImplicit false

structure WeightedRoute where
  release : String
  role : ReleaseRole
  weight : Nat
  ports : List Port
  deriving DecidableEq, Inhabited

namespace WeightedRoute

def toJson (r : WeightedRoute) : Json :=
  .obj [
    ("release", .str r.release),
    ("role", r.role.toJson),
    ("weight", .nat r.weight),
    ("ports", Json.list Port.toJson r.ports)]

open Json.Reader in
def ofJson? : Json → Option WeightedRoute := read? do
  return {
    release := ← required "release" Json.text?
    role := ← required "role" ReleaseRole.ofJson?
    weight := ← required "weight" Json.nat32?
    ports := ← defaulted "ports" [] (Json.list? Port.ofJson?) }

end WeightedRoute

structure TrafficSplitSpec where
  app : String
  target : String
  routes : List WeightedRoute
  deriving DecidableEq, Inhabited

namespace TrafficSplitSpec

def toJson (s : TrafficSplitSpec) : Json :=
  .obj [
    ("app", .str s.app),
    ("target", .str s.target),
    ("routes", Json.list WeightedRoute.toJson s.routes)]

open Json.Reader in
def ofJson? : Json → Option TrafficSplitSpec := read? do
  return {
    app := ← required "app" Json.text?
    target := ← required "target" Json.text?
    routes := ← defaulted "routes" [] (Json.list? WeightedRoute.ofJson?) }

end TrafficSplitSpec
end Cutover
