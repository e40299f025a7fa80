/-
# Cutover.Release.Name -- the identity of a release

A release is named after its application, the minute its build was made and five
hexadecimal digits of the fingerprint it was cut from, so the same inputs give the
same name and a material change gives another.
-/
import Cutover.Calendar
import Cutover.Descriptor
import Cutover.Labels
import Cutover.Width

namespace Cutover

set_option autoImplicit false

namespace Release

/-- The text behind a release's fingerprint: the descriptor's fingerprint and, if
the release has a configuration, a hyphen and the configuration's hash. -/
def fingerprintText (targetHash : String) : Option String → String
  | some configHash => targetHash ++ "-" ++ configHash
  | none => targetHash

def fingerprint (targetHash : String) (configHash : Option String) : String :=
  Digest.hexOfText (fingerprintText targetHash configHash)

/-- The characters that fill exactly the given count of UTF-8 bytes, if the text has
that many and none is cut. -/
def takeBytes? : Nat → List Char → Option (List Char)
  | 0, _ => some []
  | _ + 1, [] => none
  | n + 1, c :: rest =>
      if c.utf8Size ≤ n + 1 then (takeBytes? (n + 1 - c.utf8Size) rest).map (c :: ·) else none
termination_by _ cs => cs.length

/-- The first bytes of a text, or all of it where they cannot be cut off. -/
def leading (bytes : Nat) (s : String) : String :=
  match takeBytes? bytes s.toList with
  | some cs => String.ofList cs
  | none => s

/-- Seconds since 1970 that a count of 64 bits stands for: its upper half are the
negative times. -/
def signedSeconds (n : Nat) : Int := if n < Width.half64 then n else (n : Int) - Width.bits64

/-- The minute in a release's name; times without a date count as the epoch. -/
def minuteOf (createdAt : Nat) : Calendar.Minute :=
  (Calendar.Minute.ofSeconds? (signedSeconds createdAt)).getD Calendar.epoch

def nameFor (app : String) (buildCreatedAt : Nat) (fingerprint : String) : String :=
  app ++ "-" ++ (minuteOf buildCreatedAt).stamp ++ "-" ++ leading 5 fingerprint

/-- A release that no store has seen, of a descriptor, with a build and the hash and
config map name of a configuration. -/
def cut (d : Descriptor) (build : Build) (targetHash : String)
    (config : Option (String × String)) : Release :=
  let name := nameFor d.spec.app build.spec.createdAt
    (fingerprint targetHash (config.map (·.1)))
  let labels := ((Label.ofTarget d.spec.app d.spec.target).insert Label.build build.name).insert
    Label.targetHash targetHash
  let labels := match config with
    | some (hash, _) => labels.insert Label.configHash hash
    | none => labels
  { info := { Meta.fresh d.targetNamespace name with labels, owner := some d.key }
    spec := {
      app := d.spec.app
      target := d.spec.target
      build := build.name
      config := (config.map (·.2)).getD ""
      numDesired := 0
      role := .none
      traffic := 0
      runtime := d.spec.runtime }
    status := default }

end Release
end Cutover
