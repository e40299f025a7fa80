/-
# Cutover.Proofs.Configuration.Encoding -- the bytes of some entries give the entries back

Eight bytes say how long the text after them is, so a text ends where its length says, whatever
stands behind it (`sized_append_inj`).  By induction the texts of all entries end where they did,
and nothing can slide from a key into its value or from one entry into the next
(`bytesOf_inj`).  Among entries whose bytes SHA-256 tells apart the hash then tells the entries.
-/
import Cutover.Configuration
import Cutover.Proofs.Digest
import Cutover.Proofs.Json.Record

namespace Cutover.Configuration

set_option autoImplicit false

variable {s t : String} {rest rest' : List UInt8} {data data' : Dict String}

/-- The length of a text fits in eight bytes. -/
def Sizable (s : String) : Prop := s.utf8ByteSize < Width.bits64

instance (s : String) : Decidable (Sizable s) := inferInstanceAs (Decidable (_ < _))

/-- **A text after its length.**  It can be read off the front of any bytes it stands before. -/
theorem sized_append_inj (fits : Sizable s) (fits' : Sizable t) :
    sized s ++ rest = sized t ++ rest' ↔ s = t ∧ rest = rest' := by
  constructor
  · intro same
    simp only [sized, List.append_assoc] at same
    obtain ⟨size, after⟩ := List.append_inj same
      (by rw [Digest.length_littleEndian, Digest.length_littleEndian])
    have length : s.utf8ByteSize = t.utf8ByteSize := (Digest.littleEndian_inj fits fits').1 size
    obtain ⟨text, behind⟩ := List.append_inj after
      (by rw [Digest.length_utf8, Digest.length_utf8, length])
    exact ⟨Digest.utf8_inj.1 text, behind⟩
  · rintro ⟨rfl, rfl⟩
    rfl

theorem sized_ne_nil (s : String) : sized s ≠ [] := by
  intro empty
  have length := congrArg List.length (List.append_eq_nil_iff.1 empty).1
  rw [Digest.length_littleEndian] at length
  cases length

/-! ## Entries -/

/-- The lengths of all keys and values fit in eight bytes. -/
def AllSizable (data : Dict String) : Prop :=
  ∀ entry ∈ data.entries, Sizable entry.1 ∧ Sizable entry.2

instance (data : Dict String) : Decidable (AllSizable data) :=
  inferInstanceAs (Decidable (∀ _ ∈ _, _))

/-- The bytes of one entry. -/
def entryBytes (entry : String × String) : List UInt8 := sized entry.1 ++ sized entry.2

theorem entryBytes_append_inj {entry entry' : String × String}
    (fits : Sizable entry.1 ∧ Sizable entry.2) (fits' : Sizable entry'.1 ∧ Sizable entry'.2) :
    entryBytes entry ++ rest = entryBytes entry' ++ rest' ↔ entry = entry' ∧ rest = rest' := by
  simp only [entryBytes, List.append_assoc]
  rw [sized_append_inj fits.1 fits'.1, sized_append_inj fits.2 fits'.2, Prod.ext_iff, and_assoc]

theorem entryBytes_ne_nil (entry : String × String) : entryBytes entry ≠ [] := by
  intro empty
  exact sized_ne_nil _ (List.append_eq_nil_iff.1 empty).1

theorem flatMap_entryBytes_inj {entries entries' : List (String × String)}
    (fits : ∀ entry ∈ entries, Sizable entry.1 ∧ Sizable entry.2)
    (fits' : ∀ entry ∈ entries', Sizable entry.1 ∧ Sizable entry.2)
    (same : entries.flatMap entryBytes = entries'.flatMap entryBytes) : entries = entries' := by
  induction entries generalizing entries' with
  | nil =>
      cases entries' with
      | nil => rfl
      | cons entry' others' =>
          exact absurd (List.append_eq_nil_iff.1 same.symm).1 (entryBytes_ne_nil entry')
  | cons entry others ih =>
      cases entries' with
      | nil => exact absurd (List.append_eq_nil_iff.1 same).1 (entryBytes_ne_nil entry)
      | cons entry' others' =>
          rw [List.forall_mem_cons] at fits fits'
          rw [List.flatMap_cons, List.flatMap_cons, entryBytes_append_inj fits.1 fits'.1] at same
          rw [same.1, ih fits.2 fits'.2 same.2]

theorem bytesOf_inj (fits : AllSizable data) (fits' : AllSizable data') :
    bytesOf data = bytesOf data' ↔ data = data' := by
  constructor
  · intro same
    have entries : data.entries = data'.entries := flatMap_entryBytes_inj fits fits' same
    rw [← Dict.ofList_entries data, entries, Dict.ofList_entries]
  · rintro rfl
    rfl

/-- **The hash of a configuration.**  The bytes that are hashed give the entries back, so among
entries without a collision two configurations have one hash just if they have the same
entries. -/
theorem hash_ofData_inj (data data' : Dict String) (fits : AllSizable data)
    (fits' : AllSizable data') :
    (bytesOf data = bytesOf data' ↔ data = data') ∧
      ∀ messages : Set (List UInt8), Digest.CollisionFree messages →
        bytesOf data ∈ messages → bytesOf data' ∈ messages →
          ((ofData data).hash = (ofData data').hash ↔ data = data') := by
  refine ⟨bytesOf_inj fits fits', fun messages free inside inside' => ?_⟩
  show Digest.hexOf (bytesOf data) = Digest.hexOf (bytesOf data') ↔ data = data'
  rw [Digest.hexOf_inj free inside inside', bytesOf_inj fits fits']

namespace Sample

/-- Two entries, and one whose value has the text of the second: without the lengths both would
be the same bytes. -/
def apart : Dict String := Dict.ofList [("A", "1"), ("B", "2")]

def joined : Dict String := Dict.ofList [("A", "1B2")]

theorem collisionFree_apart_joined :
    Digest.CollisionFree {bytesOf apart, bytesOf joined} :=
  Digest.collisionFree_pair (by decide +kernel)

theorem hash_apart_ne_hash_joined : AllSizable apart ∧ AllSizable joined ∧
    (ofData apart).hash ≠ (ofData joined).hash := by
  have fits : AllSizable apart := by decide
  have fits' : AllSizable joined := by decide
  have told := (hash_ofData_inj apart joined fits fits').2 _ collisionFree_apart_joined
    (.inl rfl) (.inr rfl)
  exact ⟨fits, fits', fun same => absurd (told.1 same) (by decide)⟩

end Sample

end Cutover.Configuration
