/-
# Cutover.Schema.Build -- container images

A build is an immutable reference to a container image.  Its name is derived from
what it refers to: `uniqueName` is the image and tag with every character that is
neither an ASCII letter, a digit nor a hyphen replaced by a hyphen, and four
hexadecimal digits of the digest of the full reference.
-/
import Cutover.Digest
import Cutover.Json.Record

namespace Cutover

set_option autoImplicit false

structure BuildSpec where
  registry : String
  image : String
  tag : String
  createdAt : Nat
  deriving DecidableEq, Inhabited

namespace BuildSpec

def toJson (b : BuildSpec) : Json :=
  .obj [
    ("registry", .str b.registry),
    ("image", .str b.image),
    ("tag", .str b.tag),
    ("created_at", .nat b.createdAt)]

open Json.Reader in
def ofJson? : Json → Option BuildSpec := read? do
  return {
    registry := ← defaulted "registry" "" Json.text?
    image := ← required "image" Json.text?
    tag := ← defaulted "tag" "" Json.text?
    createdAt := ← required "created_at" Json.nat64? }

/-- The image with the registry that serves it. -/
def imagePath (b : BuildSpec) : String :=
  if b.registry = "" then b.image else b.registry ++ "/" ++ b.image

/-- The image path and tag, as a runtime pulls it. -/
def reference (b : BuildSpec) : String :=
  if b.tag = "" then b.imagePath else b.imagePath ++ ":" ++ b.tag

/-- A character of a name, or a hyphen in its place. -/
def nameChar (c : Char) : Char :=
  if c.isAlphanum || c = '-' then c else '-'

def uniqueName (b : BuildSpec) : String :=
  let digest := Digest.hexOfText (b.registry ++ ":" ++ b.reference)
  let plain := if b.tag = "" then b.image else b.image ++ "-" ++ b.tag
  String.ofList (plain.toList.map nameChar ++ '-' :: digest.toList.take 4)

end BuildSpec
end Cutover
