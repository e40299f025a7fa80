/-
# Cutover.Json.Record -- reading structures

A structure is read from a JSON object by the names of its fields, or from an
array by their order.  A `Reader` asks for the fields one after the other in the
order the structure lists them, so one description serves both forms: in an
object a name is looked up and names nobody asks for are ignored, in an array
the next item is taken and an item that is left over at the end is refused.

A field that is required must be there; one with a default may be missing, but
if it is there it must be of its kind, and null is of no kind but an optional
one.
-/
import Cutover.Json.Basic

namespace Cutover.Json

set_option autoImplicit false

/-- The fields of a structure as a JSON value gives them. -/
inductive Record where
  | named (fields : List (String × Json))
  | listed (items : List Json)

def Record.isExhausted : Record → Bool
  | .named _ => true
  | .listed items => items.isEmpty

def record? : Json → Option Record
  | .obj fields => some (.named fields)
  | .arr items => some (.listed items)
  | _ => none

/-- Reads a structure field by field. -/
abbrev Reader := StateT Record Option

namespace Reader

variable {α : Type}

/-- The value given for the next field. -/
def field (name : String) : Reader (Option Json) := fun
  | .named fields => some (lookup name fields, .named fields)
  | .listed [] => some (none, .listed [])
  | .listed (j :: rest) => some (some j, .listed rest)

def required (name : String) (read : Json → Option α) : Reader α := do
  match ← field name with
  | some j => StateT.lift (read j)
  | none => StateT.lift none

def defaulted (name : String) (absent : α) (read : Json → Option α) : Reader α := do
  match ← field name with
  | some j => StateT.lift (read j)
  | none => pure absent

/-- A field that may be missing or null. -/
def optional (name : String) (read : Json → Option α) : Reader (Option α) :=
  defaulted name none (option? read)

/-- Read a whole structure. -/
def ofRecord? (reader : Reader α) (record : Record) : Option α :=
  match reader record with
  | some (a, left) => if left.isExhausted then some a else none
  | none => none

def read? (reader : Reader α) (j : Json) : Option α :=
  j.record?.bind reader.ofRecord?

end Reader

/-- The tag of a value whose form depends on it, and the fields beside the tag. -/
def tagged? (tag : String) : Json → Option (String × Record)
  | .obj fields =>
      match lookup tag fields with
      | some (.str name) => some (name, .named fields)
      | _ => none
  | .arr (.str name :: rest) => some (name, .listed rest)
  | _ => none

end Cutover.Json
