/-
# Cutover.Toml.Number -- numbers and times

A whole number is decimal, with a sign if need be and no leading zeros, or has one of
the marks 0x, 0o and 0b; it fits into 64 bits with a sign.  Digits may be grouped by
single underscores.  Other numbers have a fraction or an exponent or are one of the
words inf and nan; one too large for 64 bits of binary floating point is refused
unless it is negative.

A time is a date, a time of day or both, with an offset if it is both.
-/
import Cutover.Text.Hexadecimal
import Cutover.Toml.Basic
import Cutover.Toml.Scan
import Cutover.Width

namespace Cutover.Toml.Number

set_option autoImplicit false

open Scan

/-! ## Digits -/

/-- A digit and further ones, which single underscores may stand before. -/
def groups (p : Char → Bool) : List Char → Option (List Char × List Char)
  | [] => none
  | c :: rest =>
      if !p c then none
      else match rest with
        | '_' :: next :: more =>
            if p next then (groups p (next :: more)).map fun (ds, left) => (c :: ds, left) else none
        | ['_'] => none
        | next :: more =>
            if p next then (groups p (next :: more)).map fun (ds, left) => (c :: ds, left)
            else some ([c], next :: more)
        | [] => some ([c], [])
termination_by cs => cs.length

/-- The digits of a number in some base, without their underscores. -/
def digits (p : Char → Bool) : Scan (List Char) := groups p

def sign : Scan (Option Char) := optional (one fun c => c = '+' || c = '-')

/-- Decimal digits without a leading zero. -/
def wholeDigits : Scan (List Char) := do
  match ← peek with
  | some '0' =>
      char '0'
      return ['0']
  | _ => digits Char.isDigit

/-- The number that some digits stand for in a base. -/
def numberOf (base : Nat) (ds : List Char) : Nat :=
  ds.foldl (fun n c => n * base + (Text.hexValue? c).getD 0) 0

/-! ## Whole numbers -/

/-- A number that 64 bits with a sign can hold. -/
def signed64? (n : Int) : Option Int :=
  if Width.isSigned Width.half64 n then some n else none

/-- A number with the mark of its base. -/
def marked (mark : Char) (base : Nat) : Scan Toml := do
  word ['0', mark]
  let ds ← digits fun c => (Text.hexValue? c).any (· < base)
  accept ((signed64? (numberOf base ds)).map Toml.int)

def decimal : Scan Toml := do
  let negative := (← sign) = some '-'
  let n := numberOf 10 (← wholeDigits)
  accept ((signed64? (if negative then -(n : Int) else n)).map Toml.int)

def integer : Scan Toml :=
  marked 'x' 16 <|> marked 'o' 8 <|> marked 'b' 2 <|> decimal

/-! ## Other numbers -/

def fraction : Scan (List Char) := do
  char '.'
  digits Char.isDigit

def exponent : Scan Int := do
  discard (one fun c => c = 'e' || c = 'E')
  let negative := (← sign) = some '-'
  let n := numberOf 10 (← digits Char.isDigit)
  return if negative then -(n : Int) else n

/-- The least number that rounds beyond the largest of 64-bit binary floating point. -/
def overflow : Nat := 1 <<< 1024 - 1 <<< 970

/-- Whether a number of so many tenths' powers is too large. -/
def isTooLarge (mantissa : Nat) (power : Int) : Bool :=
  let length : Int := (Nat.toDigits 10 mantissa).length
  if mantissa = 0 ∨ length + power < 300 then false
  else if length + power > 320 then true
  else mantissa * Nat.pow 10 power.toNat ≥ overflow * Nat.pow 10 (-power).toNat

def float : Scan Unit := do
  let negative := (← sign) = some '-'
  let whole ← wholeDigits
  let part ← optional fraction
  let power ← optional exponent
  if part.isNone && power.isNone then refuse
  let ds := part.getD []
  if !negative && isTooLarge (numberOf 10 (whole ++ ds)) (power.getD 0 - ds.length) then refuse

def special : Scan Unit := do
  discard sign
  word ['i', 'n', 'f'] <|> word ['n', 'a', 'n']

def real : Scan Toml := do
  return .real (String.ofList (← taken (float <|> special)))

/-! ## Times -/

/-- A number of exactly so many digits between two bounds. -/
def fixed (count least most : Nat) : Scan Nat := fun cs =>
  let ds := cs.take count
  let n := numberOf 10 ds
  if ds.length = count ∧ ds.all Char.isDigit ∧ least ≤ n ∧ n ≤ most then some (n, cs.drop count)
  else none

def isLeap (year : Nat) : Bool := year % 4 = 0 && (year % 100 ≠ 0 || year % 400 = 0)

def daysIn (year month : Nat) : Nat :=
  if month = 2 then if isLeap year then 29 else 28
  else if month = 4 ∨ month = 6 ∨ month = 9 ∨ month = 11 then 30
  else 31

def date : Scan Unit := do
  let year ← fixed 4 0 9999
  char '-'
  let month ← fixed 2 1 12
  char '-'
  discard (fixed 2 1 (daysIn year month))

def timeOfDay : Scan Unit := do
  discard (fixed 2 0 23)
  char ':'
  discard (fixed 2 0 59)
  char ':'
  discard (fixed 2 0 60)
  discard <| optional do
    char '.'
    discard (one Char.isDigit)
    discard (many Char.isDigit)

def offset : Scan Unit := do
  match ← sign with
  | some _ =>
      discard (fixed 2 0 23)
      char ':'
      discard (fixed 2 0 59)
  | none => discard (one fun c => c = 'Z' || c = 'z')

/-- A date with the time of day and offset that may follow it. -/
def dateTime : Scan Unit := do
  date
  discard <| optional do
    discard (one fun c => c = 'T' || c = 't' || c = ' ')
    timeOfDay
    discard (optional offset)

def time : Scan Toml := do
  return .time (String.ofList (← taken (dateTime <|> timeOfDay)))

/-- A number or a time. -/
def any : Scan Toml := time <|> real <|> integer

end Cutover.Toml.Number
