/-
# Cutover.Configuration -- what a descriptor's releases are configured with

Entries are published as app configs.  Of those with an application's label, the
first without a target is the base and the first for the descriptor's target is
laid over it, by their published keys (`merged`).  Keys are then turned into
environment names, and the ones that are no such names are dropped; each shared
config that the descriptor lists, if it can be found, adds one entry with its own
entries as JSON text (`resolve`).

The resolved entries have a hash over their lengths and bytes, so that no text can
slide from one entry into the next, and are stored once as a config map named by
the first digits of that hash (`ensureMap`).
-/
import Cutover.Descriptor
import Cutover.Labels
import Cutover.Store.Edit
import Cutover.Text.Uppercase

namespace Cutover

set_option autoImplicit false

/-- The environment name of a text: upper case, hyphens and dots as underscores. -/
def EnvVar.normalizeName (s : String) : String :=
  (Text.upper s).map fun c => if c = '-' || c = '.' then '_' else c

/-- Whether a text is an environment name: upper-case letters, digits and
underscores of ASCII, not starting with a digit. -/
def EnvVar.isName (s : String) : Bool :=
  let isFirst (c : Char) : Bool := c.isUpper || c = '_'
  match s.toList with
  | [] => false
  | c :: rest => isFirst c && rest.all fun c => isFirst c || c.isDigit

/-- Resolved entries and the hash of their content. -/
structure Configuration where
  data : Dict String
  hash : String
  deriving DecidableEq

namespace Configuration

/-- The bytes of a text after their number in eight bytes. -/
def sized (s : String) : List UInt8 := Digest.littleEndian 8 s.utf8ByteSize ++ Digest.utf8 s

/-- The bytes whose digest is the hash of some entries: every key and value after
its length, in key order. -/
def bytesOf (data : Dict String) : List UInt8 :=
  data.entries.flatMap fun entry => sized entry.1 ++ sized entry.2

def ofData (data : Dict String) : Configuration := { data, hash := Digest.hexOf (bytesOf data) }

/-- The name of the config map that holds the entries. -/
def mapName (c : Configuration) (app : String) : String :=
  app ++ "-" ++ String.ofList (c.hash.toList.take 6)

/-! ## Resolving -/

def baseOf? (configs : List AppConfig) : Option AppConfig :=
  configs.find? fun c => match c.label? Label.target with
    | none => true
    | some target => target = ""

def specialOf? (configs : List AppConfig) (target : String) : Option AppConfig :=
  configs.find? fun c => c.label? Label.target = some target

/-- The base overlaid with the entries for the target, if there is either. -/
def overlay (base special : Option AppConfig) : Option (Dict String) :=
  match base, special with
  | none, none => none
  | _, _ =>
      let entries (c : Option AppConfig) : Dict String := (c.map (·.spec.entries)).getD ∅
      some ((entries base).insertAll (entries special).entries)

/-- The published entries of one type for a target among the configs of a query. -/
def merged (s : Store) (type : ConfigType) (query : Selector) (target : String) :
    Option (Dict String) :=
  let configs := (s.matching .appConfigs query).filter fun c => c.spec.configType = type
  overlay (baseOf? configs) (specialOf? configs target)

/-- The entries of a descriptor's application. -/
def appEntries (s : Store) (d : Descriptor) : Option (Dict String) :=
  merged s .app (Selector.any.require Label.app d.spec.app) d.spec.target

/-- The shared configs a descriptor lists, those that can be found. -/
def sharedEntries (s : Store) (d : Descriptor) : List (String × Dict String) :=
  d.spec.configs.filterMap fun name =>
    (merged s .shared (Selector.any.require Label.sharedConfig name) d.spec.target).map (name, ·)

/-- Entries under the environment names of their keys; of two keys with one name the
later stays, and a key without one is dropped. -/
def environment (entries : Dict String) : Dict String :=
  Dict.ofList ((entries.entries.map fun entry => (EnvVar.normalizeName entry.1, entry.2)).filter
    fun entry => EnvVar.isName entry.1)

/-- One entry of a shared config: all of its entries as JSON text. -/
def sharedEntry (shared : String × Dict String) : String × String :=
  (EnvVar.normalizeName shared.1, (Json.dict .str shared.2).compact)

/-- The configuration of a descriptor, nothing if it has neither entries of its own
nor a shared config. -/
def resolve (s : Store) (d : Descriptor) : Option Configuration :=
  let app := appEntries s d
  let shared := sharedEntries s d
  if app.isNone && shared.isEmpty then none
  else some (ofData ((environment (app.getD ∅)).insertAll (shared.map sharedEntry)))

/-! ## Config maps -/

/-- The config map of a configuration in the namespace of a descriptor. -/
def mapFor (d : Descriptor) (c : Configuration) : ConfigMap :=
  { info := { Meta.fresh d.targetNamespace (c.mapName d.spec.app) with
      labels := (Label.ofTarget d.spec.app d.spec.target).insert Label.configHash c.hash
      owner := some d.key }
    spec := { data := c.data }
    status := () }

/-- Store the config map unless its name is taken; its name. -/
def ensureMap (d : Descriptor) (c : Configuration) : Pass StoreError String := fun s =>
  let name := c.mapName d.spec.app
  match s.get .configMaps d.targetNamespace name with
  | some _ => .ok name s
  | none =>
      match s.create (mapFor d c) with
      | .ok (_, s) => .ok name s
      | .error (.alreadyExists ..) => .ok name s
      | .error e => .error e s

end Configuration
end Cutover
