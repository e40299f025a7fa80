/-
# Cutover.Proofs.Configuration.Validity -- which keys a configuration has

Two things put keys into a configuration.  An entry of the application is put in under the
environment name of its published key, if that is a valid one; a shared config that is listed and
found is put in under the environment name of its own name, which nothing checks
(`contains_iff_of_resolve`).  So all keys are valid environment names just if the names of the
shared configs are (`keys_valid_iff_shared_valid`).

Both happen to one text: of the published key `9lives` there is nothing, of the shared config
`9lives` there is the key `9LIVES` (`shared_name_unchecked`).
-/
import Cutover.Proofs.Configuration.Precedence

namespace Cutover

set_option autoImplicit false

theorem Dict.contains_insertAll {α : Type} {d : Dict α} {pairs : List (String × α)} {key : String} :
    (d.insertAll pairs).contains key = true ↔
      d.contains key = true ∨ ∃ pair ∈ pairs, pair.1 = key := by
  induction pairs generalizing d with
  | nil => simp [insertAll]
  | cons pair rest ih =>
      show ((d.insert pair.1 pair.2).insertAll rest).contains key = true ↔ _
      rw [ih, contains_insert, List.exists_mem_cons_iff, eq_comm (a := key), or_assoc, or_left_comm]

/-- The first character is an upper-case letter or an underscore, and the others are such
characters or digits. -/
theorem EnvVar.isName_iff {s : String} : EnvVar.isName s = true ↔
    ∃ first rest, s.toList = first :: rest ∧ (first.isUpper = true ∨ first = '_') ∧
      ∀ c ∈ rest, c.isUpper = true ∨ c = '_' ∨ c.isDigit = true := by
  unfold isName
  cases s.toList with
  | nil => simp
  | cons first rest => simp [or_assoc]

namespace Configuration

variable {s : Store} {d : Descriptor} {c : Configuration} {entries : Dict String} {key : String}

/-! ## Where keys come from -/

/-- Some entry of the application is published for the key. -/
def Published (s : Store) (d : Descriptor) (key : String) : Prop :=
  ∃ entries published, appEntries s d = some entries ∧ entries.contains published = true ∧
    EnvVar.normalizeName published = key

/-- A shared config that the descriptor lists can be found. -/
def Shares (s : Store) (d : Descriptor) (name : String) : Prop :=
  name ∈ d.spec.configs ∧ ∃ entries,
    merged s .shared (Selector.any.require Label.sharedConfig name) d.spec.target = some entries

theorem contains_environment : (environment entries).contains key = true ↔
    EnvVar.isName key = true ∧
      ∃ published, entries.contains published = true ∧ EnvVar.normalizeName published = key := by
  have found {published : String} :
      entries.contains published = true ↔ ∃ value, (published, value) ∈ entries.entries := by
    simp only [Dict.contains, Option.isSome_iff_exists, Dict.get?_eq_some_iff]
  simp only [environment, Dict.ofList, Dict.contains_insertAll, List.mem_filter, List.mem_map, found]
  constructor
  · rintro (none_ | ⟨pair, ⟨⟨entry, inside, rfl⟩, valid⟩, rfl⟩)
    · cases none_
    · exact ⟨valid, entry.1, ⟨entry.2, inside⟩, rfl⟩
  · rintro ⟨valid, published, ⟨value, inside⟩, rfl⟩
    exact .inr ⟨_, ⟨⟨(published, value), inside, rfl⟩, valid⟩, rfl⟩

theorem exists_sharedEntry : (∃ pair ∈ (sharedEntries s d).map sharedEntry, pair.1 = key) ↔
    ∃ name, Shares s d name ∧ EnvVar.normalizeName name = key := by
  simp only [sharedEntries, List.mem_map, List.mem_filterMap]
  constructor
  · rintro ⟨pair, ⟨shared, ⟨name, listed, found⟩, rfl⟩, rfl⟩
    obtain ⟨entries, here, rfl⟩ := Option.map_eq_some_iff.1 found
    exact ⟨name, ⟨listed, entries, here⟩, rfl⟩
  · rintro ⟨name, ⟨listed, entries, here⟩, rfl⟩
    have found := congrArg (Option.map (name, ·)) here
    exact ⟨_, ⟨(name, entries), ⟨name, listed, found⟩, rfl⟩, rfl⟩

/-- **The keys of a configuration.**  A key has a published entry and is a valid name, or it is what
the name of a shared config becomes. -/
theorem contains_iff_of_resolve (resolved : resolve s d = some c) (key : String) :
    c.data.contains key = true ↔ EnvVar.isName key = true ∧ Published s d key ∨
      ∃ name, Shares s d name ∧ EnvVar.normalizeName name = key := by
  have content : c = ofData ((environment ((appEntries s d).getD ∅)).insertAll
      ((sharedEntries s d).map sharedEntry)) := by
    unfold resolve at resolved
    simp only at resolved
    split at resolved
    · cases resolved
    · exact (Option.some.inj resolved).symm
  have published : (∃ published, ((appEntries s d).getD ∅).contains published = true ∧
      EnvVar.normalizeName published = key) ↔ Published s d key := by
    unfold Published
    cases appEntries s d with
    | none => simp
    | some entries => simp
  subst content
  show ((environment _).insertAll _).contains key = true ↔ _
  rw [Dict.contains_insertAll, contains_environment, exists_sharedEntry, published]

/-! ## Validity -/

/-- **Valid keys.**  The keys of a configuration are those published for the application that are
valid names, and the names of the shared configs that are found, valid or not.  So all of them are
valid just if these names are. -/
theorem keys_valid_iff_shared_valid (s : Store) (d : Descriptor) (c : Configuration)
    (resolved : resolve s d = some c) :
    (∀ key, c.data.contains key = true ↔ EnvVar.isName key = true ∧ Published s d key ∨
      ∃ name, Shares s d name ∧ EnvVar.normalizeName name = key) ∧
    ((∀ key, c.data.contains key = true → EnvVar.isName key = true) ↔
      ∀ name, Shares s d name → EnvVar.isName (EnvVar.normalizeName name) = true) := by
  have keys := contains_iff_of_resolve resolved
  refine ⟨keys, ?_, ?_⟩
  · intro valid name shared
    exact valid _ ((keys _).2 (.inr ⟨name, shared, rfl⟩))
  · intro valid key inside
    rcases (keys key).1 inside with ⟨named, -⟩ | ⟨name, shared, rfl⟩
    · exact named
    · exact valid name shared

namespace Sample

open Cutover.Sample

def sharedConfig (name : String) : AppConfig :=
  { info := { Meta.fresh "" name with labels := Dict.ofList [(Label.sharedConfig, name)] }
    spec := ⟨.shared, Dict.ofList [("mode", "fast")]⟩
    status := () }

/-- The store once an application has published an entry with a key and a shared config of some name
is there. -/
def sharing (key name : String) : Store :=
  let s := Store.empty 100
  let s := s.commit (s.accepted (config "web" [(Label.app, "web")] key "info")) ∅ .created
  s.commit (s.accepted (sharedConfig name)) ∅ .created

/-- A descriptor that lists one shared config. -/
def listing (name : String) : Descriptor :=
  { descriptor 4 with spec := { (descriptor 4).spec with configs := [name] } }

/-- With a shared config of a valid name every key is valid. -/
theorem keys_valid_with_db : ∃ c, resolve (sharing "level" "db") (listing "db") = some c ∧
    ∀ key, c.data.contains key = true → EnvVar.isName key = true := by
  have found : (resolve (sharing "level" "db") (listing "db")).isSome = true := by decide +kernel
  have named : EnvVar.isName (EnvVar.normalizeName "db") = true := by decide +kernel
  obtain ⟨c, resolved⟩ := Option.isSome_iff_exists.1 found
  refine ⟨c, resolved, (keys_valid_iff_shared_valid _ _ c resolved).2.2 ?_⟩
  rintro name ⟨listed, -⟩
  rw [List.mem_singleton.1 listed]
  exact named

end Sample

/-- An application publishes an entry under a text that starts with a digit, and a shared config has
that text as its name.  The entry is dropped and the shared config is not, so the configuration has
one key, and no environment variable can be called that. -/
theorem shared_name_unchecked : ∃ (s : Store) (d : Descriptor) (c : Configuration),
    d.spec.configs = ["9lives"] ∧ Published s d "9LIVES" ∧ resolve s d = some c ∧
    c.data.entries = [("9LIVES", "\x7b\"mode\":\"fast\"\x7d")] ∧ EnvVar.isName "9LIVES" = false := by
  have content : (resolve (Sample.sharing "9lives" "9lives") (Sample.listing "9lives")).map
      (·.data.entries) = some [("9LIVES", "\x7b\"mode\":\"fast\"\x7d")] := by decide +kernel
  have published : (appEntries (Sample.sharing "9lives" "9lives") (Sample.listing "9lives")).map
      (·.contains "9lives") = some true := by decide +kernel
  have upper : EnvVar.normalizeName "9lives" = "9LIVES" := by decide +kernel
  obtain ⟨c, resolved, only⟩ := Option.map_eq_some_iff.1 content
  obtain ⟨entries, here, inside⟩ := Option.map_eq_some_iff.1 published
  exact ⟨_, _, c, rfl, ⟨entries, "9lives", here, inside, upper⟩, resolved, only, by decide⟩

end Configuration
end Cutover
