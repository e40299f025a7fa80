/-
# Cutover.Proofs.Digest -- what a digest keeps of its message

Of the steps from a text to its hexadecimal digest only the compression can lose anything.  The
bytes of a text give the text back (`utf8_inj`), the bytes of a number that fits give the number
(`littleEndian_inj`), and the digits give the digest (`hex_inj`).

So among messages that SHA-256 tells apart (`CollisionFree`) the digits tell the message
(`hexOf_inj`).  No function from all messages to 32 bytes tells all of them apart, so it is
always of some messages that this is assumed.
-/
import Cutover.Proofs.Json.Text
import Cutover.Proofs.Release.Naming
import Mathlib.Data.Set.Function

namespace Cutover.Digest

set_option autoImplicit false

variable {s t : String} {n m count : Nat} {bytes bytes' : List UInt8}

/-! ## Bytes of a text -/

theorem toList_loop (array : ByteArray) (i : Nat) (front : List UInt8) :
    ByteArray.toList.loop array i front = front.reverse ++ array.data.toList.drop i := by
  fun_induction ByteArray.toList.loop array i front with
  | case1 i front lt ih =>
      have inside : i < array.data.toList.length := by simpa using lt
      have byte : array.get! i = array.data[i] := getElem!_pos array.data i lt
      rw [ih, List.drop_eq_getElem_cons inside]
      simp [byte]
  | case2 i front ge =>
      have beyond : array.data.toList.length ≤ i := by simpa using Nat.not_lt.1 ge
      rw [List.drop_eq_nil_of_le beyond, List.append_nil]

theorem utf8_eq (s : String) : utf8 s = s.toByteArray.data.toList := by
  unfold utf8 String.toUTF8 ByteArray.toList
  simp [toList_loop]

theorem utf8_inj : utf8 s = utf8 t ↔ s = t := by
  constructor
  · intro same
    rw [utf8_eq, utf8_eq] at same
    exact String.toByteArray_inj.1 (ByteArray.ext (Array.toList_inj.1 same))
  · rintro rfl
    rfl

theorem length_utf8 (s : String) : (utf8 s).length = s.utf8ByteSize := by
  rw [utf8_eq]
  rfl

/-! ## Bytes of a number -/

theorem littleEndian_inj (lt : n < 256 ^ count) (lt' : m < 256 ^ count) :
    littleEndian count n = littleEndian count m ↔ n = m := by
  constructor
  · intro same
    induction count generalizing n m with
    | zero => omega
    | succ count ih =>
        obtain ⟨byte, rest⟩ := List.cons.inj same
        have last : n % 256 = m % 256 := by simpa using congrArg UInt8.toNat byte
        have others : n / 256 = m / 256 := by
          apply ih _ _ rest
          · rw [pow_succ] at lt
            omega
          · rw [pow_succ] at lt'
            omega
        omega
  · rintro rfl
    rfl

/-! ## Digits -/

theorem hexDigit_inj (lt : n < 16) (lt' : m < 16) :
    Text.hexDigit n = Text.hexDigit m ↔ n = m := by
  constructor
  · intro same
    have value := Json.Parser.hexValue?_hexDigit lt
    rw [same, Json.Parser.hexValue?_hexDigit lt'] at value
    exact (Option.some.inj value).symm
  · rintro rfl
    rfl

/-- Two digits a byte: the first bytes, and the digits of the others, are in the digits of all. -/
theorem hex_inj : hex bytes = hex bytes' ↔ bytes = bytes' := by
  constructor
  · intro same
    replace same := String.ofList_inj.1 same
    induction bytes generalizing bytes' with
    | nil =>
        cases bytes' with
        | nil => rfl
        | cons b' rest' => simp at same
    | cons b rest ih =>
        cases bytes' with
        | nil => simp at same
        | cons b' rest' =>
            have below := b.toNat_lt
            have below' := b'.toNat_lt
            simp only [List.flatMap_cons, List.cons_append, List.nil_append, List.cons.injEq] at same
            obtain ⟨high, low, others⟩ := same
            have high_eq := (hexDigit_inj (by omega) (by omega)).1 high
            have low_eq := (hexDigit_inj (by omega) (by omega)).1 low
            have byte : b = b' := by
              apply UInt8.toNat_inj.1
              omega
            rw [byte, ih others]
  · rintro rfl
    rfl

/-! ## Digests -/

/-- SHA-256 tells these messages apart. -/
def CollisionFree (messages : Set (List UInt8)) : Prop := Set.InjOn sha256 messages

theorem collisionFree_pair (ne : sha256 bytes ≠ sha256 bytes') : CollisionFree {bytes, bytes'} :=
  Set.injOn_pair.2 fun same => absurd same ne

/-- Among messages without a collision the hexadecimal digest tells the message. -/
theorem hexOf_inj {messages : Set (List UInt8)} (free : CollisionFree messages)
    (inside : bytes ∈ messages) (inside' : bytes' ∈ messages) :
    hexOf bytes = hexOf bytes' ↔ bytes = bytes' := by
  constructor
  · intro same
    exact free inside inside' (hex_inj.1 same)
  · rintro rfl
    rfl

end Cutover.Digest
