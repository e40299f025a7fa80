/-
# Cutover.Json.Basic -- JSON values

The tree of a JSON document.  Whole numbers are kept exactly; a number written
with a fraction, an exponent or as a negative zero is kept as its text, because
no field of any stored object takes one.  A repeated name in an object stands for
its last value (`lookup`).
-/
import Cutover.Dict
import Cutover.Width

namespace Cutover

set_option autoImplicit false

/-- A JSON value. -/
inductive Json where
  | null
  | bool (b : Bool)
  | int (n : Int)
  | real (text : String)
  | str (s : String)
  | arr (items : List Json)
  | obj (fields : List (String × Json))
  deriving Inhabited

namespace Json

/-- The value a name has among the fields of an object: the last one given. -/
def lookup (name : String) : List (String × Json) → Option Json
  | [] => none
  | field :: rest => (lookup name rest).or (if field.1 = name then some field.2 else none)

/-- A field of an object; nothing for any other value. -/
def get? (name : String) : Json → Option Json
  | .obj fields => lookup name fields
  | _ => none

/-- The fields whose name is not given again further on. -/
def distinct : List (String × Json) → List (String × Json)
  | [] => []
  | field :: rest =>
      if (lookup field.1 rest).isSome then distinct rest else field :: distinct rest

def nat (n : Nat) : Json := .int n

/-! ## Reading plain values -/

def isNull : Json → Bool
  | .null => true
  | _ => false

def bool? : Json → Option Bool
  | .bool b => some b
  | _ => none

def text? : Json → Option String
  | .str s => some s
  | _ => none

def int? : Json → Option Int
  | .int n => some n
  | _ => none

/-- A whole number from zero up to, and without, the bound. -/
def natBelow? (bound : Nat) : Json → Option Nat
  | .int (.ofNat n) => if n < bound then some n else none
  | _ => none

/-- A count of at most 16 bits. -/
def nat16? : Json → Option Nat := natBelow? Width.bits16

/-- A count of at most 32 bits. -/
def nat32? : Json → Option Nat := natBelow? Width.bits32

/-- A count of at most 64 bits. -/
def nat64? : Json → Option Nat := natBelow? Width.bits64

/-- A number with a sign, between a half below zero and the half from zero on. -/
def signed? (half : Nat) : Json → Option Int
  | .int n => if Width.isSigned half n then some n else none
  | _ => none

/-- A number of 32 bits with a sign. -/
def int32? : Json → Option Int := signed? Width.half32

/-- A number of 64 bits with a sign. -/
def int64? : Json → Option Int := signed? Width.half64

def items? : Json → Option (List Json)
  | .arr items => some items
  | _ => none

def fields? : Json → Option (List (String × Json))
  | .obj fields => some fields
  | _ => none

/-! ## Reading and writing containers -/

section Containers

variable {α : Type}

def list (write : α → Json) (l : List α) : Json := .arr (l.map write)

def list? (read : Json → Option α) : Json → Option (List α)
  | .arr items => items.mapM read
  | _ => none

def option (write : α → Json) : Option α → Json
  | none => .null
  | some a => write a

/-- Null reads as nothing. -/
def option? (read : Json → Option α) : Json → Option (Option α)
  | .null => some none
  | j => (read j).map some

def dict (write : α → Json) (d : Dict α) : Json :=
  .obj (d.entries.map fun entry => (entry.1, write entry.2))

def dict? (read : Json → Option α) : Json → Option (Dict α)
  | .obj fields => (fields.mapM fun field => (read field.2).map (field.1, ·)).map Dict.ofList
  | _ => none

/-- One field of an object that is left out when there is nothing to say. -/
def optional (name : String) (write : α → Json) : Option α → List (String × Json)
  | none => []
  | some a => [(name, write a)]

end Containers

/-! ## Names of a closed set -/

section Choice

variable {α : Type}

/-- The value that a name stands for. -/
def named? (names : List (String × α)) (name : String) : Option α :=
  (names.find? (·.1 = name)).map (·.2)

/-- A value of a closed set, by its name or as an object from its name to null. -/
def choice? (names : List (String × α)) : Json → Option α
  | .str name => named? names name
  | .obj [(name, .null)] => named? names name
  | _ => none

end Choice

end Json
end Cutover
