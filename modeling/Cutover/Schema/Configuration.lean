/-
# Cutover.Schema.Configuration -- published and materialised configuration

An app config holds entries for an application or a shared service as they were
published; a config map holds the merged entries that a release runs with.
-/
import Cutover.Json.Record

namespace Cutover

set_option autoImplicit false

inductive ConfigType where
  | app
  | shared
  deriving DecidableEq, Inhabited

namespace ConfigType

def names : List (String × ConfigType) := [("app", app), ("shared", shared)]

def name : ConfigType → String
  | app => "app"
  | shared => "shared"

def toJson (t : ConfigType) : Json := .str t.name

def ofJson? : Json → Option ConfigType := Json.choice? names

end ConfigType

structure AppConfigSpec where
  configType : ConfigType
  entries : Dict String
  deriving DecidableEq, Inhabited

namespace AppConfigSpec

def toJson (c : AppConfigSpec) : Json :=
  .obj [("config_type", c.configType.toJson), ("entries", Json.dict .str c.entries)]

open Json.Reader in
def ofJson? : Json → Option AppConfigSpec := read? do
  return {
    configType := ← defaulted "config_type" .app ConfigType.ofJson?
    entries := ← defaulted "entries" ∅ (Json.dict? Json.text?) }

end AppConfigSpec

structure ConfigMapSpec where
  data : Dict String
  deriving DecidableEq, Inhabited

namespace ConfigMapSpec

def toJson (c : ConfigMapSpec) : Json := .obj [("data", Json.dict .str c.data)]

open Json.Reader in
def ofJson? : Json → Option ConfigMapSpec := read? do
  return { data := ← defaulted "data" ∅ (Json.dict? Json.text?) }

end ConfigMapSpec
end Cutover
