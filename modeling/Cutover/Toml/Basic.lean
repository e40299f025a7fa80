/-
# Cutover.Toml.Basic -- TOML values

The tree of a TOML document.  Whole numbers are kept exactly; other numbers and
times are kept as their text, because no setting takes one.

A section of settings is a table of named entries or an array of entries by position;
what neither gives has a default (`setting`).
-/
import Cutover.Width

namespace Cutover

set_option autoImplicit false

/-- A TOML value. -/
inductive Toml where
  | str (s : String)
  | int (n : Int)
  | bool (b : Bool)
  | real (text : String)
  | time (text : String)
  | arr (items : List Toml)
  | table (fields : List (String × Toml))
  deriving Inhabited

namespace Toml

/-- The value a key has in a table. -/
def lookup {α : Type} (key : String) (fields : List (String × α)) : Option α :=
  (fields.find? (·.1 = key)).map (·.2)

/-! ## Reading values -/

def text? : Toml → Option String
  | .str s => some s
  | _ => none

def bool? : Toml → Option Bool
  | .bool b => some b
  | _ => none

/-- A count of at most 64 bits. -/
def nat64? : Toml → Option Nat
  | .int (.ofNat n) => if n < Width.bits64 then some n else none
  | _ => none

/-- Whether a value is a table or an array without entries. -/
def isVacant : Toml → Bool
  | .arr items => items.isEmpty
  | .table fields => fields.isEmpty
  | _ => false

/-- A value of a closed set, by its name or as a table from its name to nothing. -/
def choice? {α : Type} (names : List (String × α)) : Toml → Option α
  | .str name => lookup name names
  | .table [(name, value)] => if value.isVacant then lookup name names else none
  | _ => none

/-- One entry of a section, by its key in a table or its position in an array. -/
def entry? (key : String) (position : Nat) : Toml → Option Toml
  | .table fields => lookup key fields
  | .arr items => items[position]?
  | _ => none

/-- Whether a value has entries. -/
def isSection : Toml → Bool
  | .table _ => true
  | .arr _ => true
  | _ => false

/-- One setting of a section, which has a default where it is not given. -/
def setting {α : Type} (values : Toml) (key : String) (position : Nat) (absent : α)
    (read : Toml → Option α) : Option α :=
  match values.entry? key position with
  | some value => read value
  | none => some absent

end Toml
end Cutover
