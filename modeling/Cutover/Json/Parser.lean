/-
# Cutover.Json.Parser -- reading JSON text

`Json.parse?` reads one value with blanks around it and nothing else.  A string
may not hold a character below a blank, an escape names one character of the
text, and two escapes of a surrogate pair name one character together; a lone
surrogate is refused.  Of fields of one name the last stays.

Each recursive call has read a character or has gone one level down, so twice
the length of the text bounds the calls that are nested, which is the fuel that
`parse?` gives.
-/
import Cutover.Json.Basic
import Cutover.Text.Hexadecimal

namespace Cutover.Json

set_option autoImplicit false

namespace Parser

def isBlank (c : Char) : Bool := c = ' ' || c = '\t' || c = '\n' || c = '\r'

def skip (cs : List Char) : List Char := cs.dropWhile isBlank

/-- The character that a one-letter escape names. -/
def shortEscape? : Char → Option Char
  | '"' => some '"'
  | '\\' => some '\\'
  | '/' => some '/'
  | 'b' => some '\x08'
  | 'f' => some '\x0c'
  | 'n' => some '\n'
  | 'r' => some '\r'
  | 't' => some '\t'
  | _ => none

/-- The character that a long escape names, and how much text the second half of
a surrogate pair took after it. -/
def longEscape? (n : Nat) (rest : List Char) : Option (Char × Nat) :=
  if 0xD800 ≤ n ∧ n < 0xDC00 then
    match rest with
    | '\\' :: 'u' :: a :: b :: c :: d :: _ => do
        let low ← Text.hexNumber? [a, b, c, d]
        if 0xDC00 ≤ low ∧ low < 0xE000 then
          some (Char.ofNat (0x10000 + (n - 0xD800) * 0x400 + (low - 0xDC00)), 6)
        else none
    | _ => none
  else if 0xDC00 ≤ n ∧ n < 0xE000 then none
  else some (Char.ofNat n, 0)

/-- The characters of a string after its opening quote, and what follows the
closing one. -/
def string : List Char → Option (List Char × List Char)
  | [] => none
  | '"' :: rest => some ([], rest)
  | '\\' :: 'u' :: a :: b :: c :: d :: rest => do
      let n ← Text.hexNumber? [a, b, c, d]
      let (char, used) ← longEscape? n rest
      let (s, left) ← string (rest.drop used)
      return (char :: s, left)
  | '\\' :: c :: rest => do
      let char ← shortEscape? c
      let (s, left) ← string rest
      return (char :: s, left)
  | c :: rest =>
      if c.toNat < 0x20 || c = '\\' then none
      else do
        let (s, left) ← string rest
        return (c :: s, left)
termination_by cs => cs.length
decreasing_by all_goals simp <;> omega

/-- The value of a run of decimal digits. -/
def decimal (digits : List Char) : Nat :=
  digits.foldl (fun n c => n * 10 + (c.toNat - 48)) 0

/-- A mark and the digits that must follow it, if the mark is there. -/
def digitsAfter (isMark : Char → Bool) : List Char → Option (List Char × List Char)
  | c :: rest =>
      if isMark c then
        let (sign, rest) := match rest with
          | '+' :: r => if c = '.' then ([], rest) else (['+'], r)
          | '-' :: r => if c = '.' then ([], rest) else (['-'], r)
          | _ => ([], rest)
        let digits := rest.takeWhile Char.isDigit
        if digits.isEmpty then none else some (c :: (sign ++ digits), rest.dropWhile Char.isDigit)
      else some ([], c :: rest)
  | [] => some ([], [])

/-- A number.  It is whole if it has neither fraction nor exponent and is not a
negative zero. -/
def number (cs : List Char) : Option (Json × List Char) := do
  let (negative, cs) := match cs with
    | '-' :: rest => (true, rest)
    | _ => (false, cs)
  let digits := cs.takeWhile Char.isDigit
  if digits.isEmpty || (digits.head? = some '0' && digits.length > 1) then failure
  let (fraction, rest) ← digitsAfter (· = '.') (cs.dropWhile Char.isDigit)
  let (exponent, rest) ← digitsAfter (fun c => c = 'e' || c = 'E') rest
  let n := decimal digits
  if fraction.isEmpty && exponent.isEmpty && !(negative && n = 0) then
    return (.int (if negative then -(n : Int) else n), rest)
  else
    let sign := if negative then ['-'] else []
    return (.real (String.ofList (sign ++ digits ++ fraction ++ exponent)), rest)

/-- A word of the grammar. -/
def word (w : List Char) (j : Json) (cs : List Char) : Option (Json × List Char) :=
  (w.isPrefixOf? cs).map (j, ·)

mutual

/-- One value, and what follows it. -/
def value : Nat → List Char → Option (Json × List Char)
  | 0, _ => none
  | fuel + 1, cs =>
      match skip cs with
      | '"' :: rest => (string rest).map fun (s, left) => (.str (String.ofList s), left)
      | '[' :: rest =>
          match skip rest with
          | ']' :: left => some (.arr [], left)
          | rest => (items fuel rest).map fun (l, left) => (.arr l, left)
      | '\x7b' :: rest =>
          match skip rest with
          | '\x7d' :: left => some (.obj [], left)
          | rest => (fields fuel rest).map fun (l, left) => (.obj (distinct l), left)
      | 't' :: rest => word ['r', 'u', 'e'] (.bool true) rest
      | 'f' :: rest => word ['a', 'l', 's', 'e'] (.bool false) rest
      | 'n' :: rest => word ['u', 'l', 'l'] .null rest
      | cs => number cs

/-- The values of an array up to its closing bracket. -/
def items : Nat → List Char → Option (List Json × List Char)
  | 0, _ => none
  | fuel + 1, cs => do
      let (j, rest) ← value fuel cs
      match skip rest with
      | ',' :: rest =>
          let (l, left) ← items fuel rest
          return (j :: l, left)
      | ']' :: left => return ([j], left)
      | _ => none

/-- The fields of an object up to its closing brace. -/
def fields : Nat → List Char → Option (List (String × Json) × List Char)
  | 0, _ => none
  | fuel + 1, cs => do
      match skip cs with
      | '"' :: rest =>
          let (name, rest) ← string rest
          match skip rest with
          | ':' :: rest =>
              let (j, rest) ← value fuel rest
              match skip rest with
              | ',' :: rest =>
                  let (l, left) ← fields fuel rest
                  return ((String.ofList name, j) :: l, left)
              | '\x7d' :: left => return ([(String.ofList name, j)], left)
              | _ => none
          | _ => none
      | _ => none

end

end Parser

/-- The value that a text writes. -/
def parse? (s : String) : Option Json :=
  let cs := s.toList
  match Parser.value (2 * cs.length + 2) cs with
  | some (j, rest) => if (Parser.skip rest).isEmpty then some j else none
  | none => none

end Cutover.Json
