/-
# Cutover.Toml.Printer -- sections of settings as text

A section is a header and one setting a line; an empty line stands between two
sections.  Keys are given bare.
-/
import Cutover.Toml.Quoted
import Cutover.Width

namespace Cutover.Toml

set_option autoImplicit false

/-- The value of one setting. -/
inductive Scalar where
  | str (s : String)
  | nat (n : Nat)
  | bool (b : Bool)
  deriving DecidableEq

namespace Scalar

def write : Scalar → String
  | str s => Quoted.write s
  | nat n => toString n
  | bool true => "true"
  | bool false => "false"

/-- Whether a value can be written: a number has 64 bits, one of them for the sign. -/
def isWritable : Scalar → Bool
  | nat n => n < Width.half64
  | _ => true

end Scalar

structure Section where
  name : String
  settings : List (String × Scalar)
  deriving DecidableEq

namespace Section

def write (s : Section) : String :=
  "[" ++ s.name ++ "]\n" ++
    String.join (s.settings.map fun setting => setting.1 ++ " = " ++ setting.2.write ++ "\n")

def isWritable (s : Section) : Bool := s.settings.all fun setting => setting.2.isWritable

end Section

/-- The text of some sections, if all of their settings can be written. -/
def write? (sections : List Section) : Option String :=
  if sections.all Section.isWritable then some ("\n".intercalate (sections.map Section.write))
  else none

end Cutover.Toml
