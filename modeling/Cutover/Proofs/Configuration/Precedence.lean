/-
# Cutover.Proofs.Configuration.Precedence -- which entry an environment name gets

The entries for a target are laid over the base by their published keys, and only then do keys
become environment names.  Where several keys have one name, the last of them in byte order gives
the value (`get?_environment_iff`).  So an entry for the target wins over the base if no base key
of that name comes after it, and loses if one does (`last_spelling_wins`).

Of `log-level` for the target and `log_level` in the base the base wins
(`base_spelled_later_wins`).
-/
import Cutover.Configuration
import Cutover.Proofs.Json.Record
import Cutover.Proofs.Ramp.Rollout
import Cutover.Proofs.Store.Write

namespace Cutover

set_option autoImplicit false

/-! ## The last of several -/

namespace Dict

variable {α : Type} {d : Dict α} {p : String → Bool} {key key' : String} {value value' : α}

/-- Of the pairs that are put in one after the other the last one with a key stays. -/
theorem get?_insertAll_reverse (d : Dict α) (pairs : List (String × α)) (key : String) :
    (d.insertAll pairs).get? key =
      ((pairs.reverse.find? fun pair => pair.1 = key).map (·.2)).or (d.get? key) := by
  induction pairs generalizing d with
  | nil => rfl
  | cons pair rest ih =>
      show ((d.insert pair.1 pair.2).insertAll rest).get? key = _
      rw [ih, get?_insert, List.reverse_cons, List.find?_append]
      cases rest.reverse.find? fun pair => pair.1 = key with
      | some later => rfl
      | none =>
          by_cases same : key = pair.1
          · simp [same]
          · simp [same, Ne.symm same]

/-- A key with its value is the last one of a kind. -/
structure Last (d : Dict α) (p : String → Bool) (key : String) (value : α) : Prop where
  found : d.get? key = some value
  kind : p key = true
  le : ∀ other, p other = true → d.contains other = true → other ≤ key

theorem Last.contains (last : d.Last p key value) : d.contains key = true := by
  rw [Dict.contains, last.found]
  rfl

theorem Last.unique (last : d.Last p key value) (last' : d.Last p key' value') :
    key = key' ∧ value = value' := by
  have same : key = key' := String.le_antisymm (last'.le key last.kind last.contains)
    (last.le key' last'.kind last'.contains)
  subst same
  exact ⟨rfl, Option.some.inj (last.found.symm.trans last'.found)⟩

theorem last_of_find? {entry : String × α}
    (found : d.entries.reverse.find? (fun entry => p entry.1) = some entry) :
    d.Last p entry.1 entry.2 := by
  obtain ⟨kind, before, behind, split, none_⟩ := List.find?_eq_some_iff_append.1 found
  have entries : d.entries = behind.reverse ++ entry :: before.reverse := by
    rw [← List.reverse_reverse d.entries, split]
    simp
  have ordered := d.ordered
  rw [entries, List.pairwise_append] at ordered
  refine ⟨(get?_eq_some_iff d).2 (by simp [entries]), kind, fun other also inside => ?_⟩
  obtain ⟨value, there⟩ := Option.isSome_iff_exists.1 inside
  rw [get?_eq_some_iff, entries, List.mem_append, List.mem_cons] at there
  -- what stands before the entry has smaller keys, what stands behind it none of the kind
  rcases there with earlier | same | later
  · exact String.not_lt.1 (String.lt_asymm (ordered.2.2 _ earlier _ List.mem_cons_self))
  · have here : other = entry.1 := congrArg Prod.fst same
    exact here ▸ String.le_refl other
  · have absent := none_ _ (List.mem_reverse.1 later)
    simp [also] at absent

theorem exists_find?_reverse (kind : p key = true) (here : d.get? key = some value) :
    ∃ entry, (d.entries.reverse.find? fun entry => p entry.1) = some entry :=
  Option.isSome_iff_exists.1
    (List.find?_isSome.2 ⟨(key, value), List.mem_reverse.2 ((get?_eq_some_iff d).1 here), kind⟩)

/-- Of the keys of a kind there is a last one if there is any. -/
theorem exists_last (kind : p key = true) (inside : d.contains key = true) :
    ∃ key value, d.Last p key value := by
  obtain ⟨value, here⟩ := Option.isSome_iff_exists.1 inside
  obtain ⟨entry, found⟩ := exists_find?_reverse kind here
  exact ⟨entry.1, entry.2, last_of_find? found⟩

theorem find?_reverse_iff : (d.entries.reverse.find? fun entry => p entry.1) = some (key, value) ↔
    d.Last p key value := by
  refine ⟨last_of_find?, fun last => ?_⟩
  obtain ⟨entry, found⟩ := exists_find?_reverse last.kind last.found
  obtain ⟨rfl, rfl⟩ := (last_of_find? found).unique last
  exact found

theorem last_singleton (kind : p key = true) : (Dict.ofList [(key, value)]).Last p key value := by
  refine ⟨get?_insert_self ∅ key value, kind, fun other _ inside => ?_⟩
  rcases (contains_insert ∅ key other value).1 inside with rfl | inside
  · exact String.le_refl other
  · cases inside

/-! ### Overlaying -/

variable {base special : Dict α}

theorem get?_overlay (base special : Dict α) (key : String) :
    (base.insertAll special.entries).get? key = (special.get? key).or (base.get? key) :=
  get?_insertAll base special.ordered key

theorem contains_overlay : (base.insertAll special.entries).contains key = true ↔
    special.contains key = true ∨ base.contains key = true := by
  rw [contains, get?_overlay, Option.isSome_or, Bool.or_eq_true]
  rfl

/-- What is laid over has the last key of both if the base has no later one. -/
theorem Last.overlay (last : special.Last p key value)
    (le : ∀ other, p other = true → base.contains other = true → other ≤ key) :
    (base.insertAll special.entries).Last p key value := by
  refine ⟨?_, last.kind, fun other also inside => ?_⟩
  · rw [get?_overlay, last.found, Option.some_or]
  · rcases contains_overlay.1 inside with laid | beneath
    · exact last.le other also laid
    · exact le other also beneath

/-- The base has the last key of both if what is laid over has only earlier ones. -/
theorem Last.overlaid (last : special.Last p key value) (last' : base.Last p key' value')
    (lt : key < key') : (base.insertAll special.entries).Last p key' value' := by
  refine ⟨?_, last'.kind, fun other also inside => ?_⟩
  · have absent : special.get? key' = none := by
      refine Option.not_isSome_iff_eq_none.1 fun laid => ?_
      exact String.not_lt.2 (last.le key' last'.kind laid) lt
    rw [get?_overlay, absent, Option.none_or, last'.found]
  · rcases contains_overlay.1 inside with laid | beneath
    · exact String.le_trans (last.le other also laid) (String.not_lt.1 (String.lt_asymm lt))
    · exact last'.le other also beneath

end Dict

namespace Configuration

variable {s : Store} {d : Descriptor} {entries : Dict String} {name key value : String}

/-! ## Environment names -/

/-- A published key has an environment name. -/
def spells (name key : String) : Bool := EnvVar.normalizeName key = name

/-- **Of the keys with one environment name the last gives the value.** -/
theorem get?_environment_iff (valid : EnvVar.isName name = true) :
    (environment entries).get? name = some value ↔ ∃ key, entries.Last (spells name) key value := by
  -- a search for a valid name passes over what is dropped anyway
  have named : ((fun entry : String × String => decide (EnvVar.isName entry.1 ∧ entry.1 = name)) ∘
      fun entry : String × String => (EnvVar.normalizeName entry.1, entry.2)) =
        fun entry => spells name entry.1 := by
    funext entry
    by_cases same : EnvVar.normalizeName entry.1 = name
    · simp [spells, same, valid]
    · simp [spells, same]
  have found : (environment entries).get? name =
      (entries.entries.reverse.find? fun entry => spells name entry.1).map (·.2) := by
    unfold environment Dict.ofList
    rw [Dict.get?_insertAll_reverse, Dict.get?_empty, Option.or_none, ← List.filter_reverse,
      ← List.map_reverse, List.find?_filter, List.find?_map, Option.map_map]
    simp only [decide_eq_true_eq]
    rw [named]
    rfl
  rw [found, Option.map_eq_some_iff]
  constructor
  · rintro ⟨entry, last, rfl⟩
    exact ⟨entry.1, Dict.last_of_find? last⟩
  · rintro ⟨key, last⟩
    exact ⟨(key, value), Dict.find?_reverse_iff.2 last, rfl⟩

/-- The app configs a descriptor's entries are taken from. -/
def appConfigs (s : Store) (d : Descriptor) : List AppConfig :=
  (s.matching .appConfigs (Selector.any.require Label.app d.spec.app)).filter fun c =>
    c.spec.configType = .app

/-- The entries of the base. -/
def baseEntries (s : Store) (d : Descriptor) : Dict String :=
  ((baseOf? (appConfigs s d)).map (·.spec.entries)).getD ∅

variable {special : AppConfig}

theorem appEntries_special (chosen : specialOf? (appConfigs s d) d.spec.target = some special) :
    appEntries s d = some ((baseEntries s d).insertAll special.spec.entries.entries) := by
  show overlay (baseOf? (appConfigs s d)) (specialOf? (appConfigs s d) d.spec.target) = _
  rw [chosen]
  unfold baseEntries overlay
  cases baseOf? (appConfigs s d) <;> rfl

/-- With an app config for the target there is a configuration, and a name that no shared config
has gets its value from the overlaid entries. -/
theorem resolve_special (chosen : specialOf? (appConfigs s d) d.spec.target = some special)
    (unshared : ∀ shared ∈ d.spec.configs, EnvVar.normalizeName shared ≠ name) :
    ∃ c, resolve s d = some c ∧ c.data.get? name =
      (environment ((baseEntries s d).insertAll special.spec.entries.entries)).get? name := by
  have entries := appEntries_special chosen
  unfold resolve
  simp only [entries, Option.isNone_some, Bool.false_and, Bool.false_eq_true, if_false]
  refine ⟨_, rfl, ?_⟩
  show ((environment _).insertAll ((sharedEntries s d).map sharedEntry)).get? name = _
  -- a listed config that is not found adds no entry, and one that is found none of this name
  have none_ : (((sharedEntries s d).map sharedEntry).reverse.find? fun pair =>
      pair.1 = name) = none := by
    refine List.find?_eq_none.2 fun pair member => ?_
    obtain ⟨shared, listed, rfl⟩ := List.mem_map.1 (List.mem_reverse.1 member)
    obtain ⟨config, here, read⟩ := List.mem_filterMap.1 listed
    obtain ⟨entries, -, rfl⟩ := Option.map_eq_some_iff.1 read
    exact mt of_decide_eq_true (unshared config here)
  rw [Dict.get?_insertAll_reverse, none_]
  rfl

/-! ## Base and target -/

/-- **Base and target.**  With an app config for the target that has a key of some name, and no
shared config of that name, there is a configuration.  The name has its value from the last key of
the name that is published for the target, unless the last one that the base has comes later: then
it has the value from the base. -/
theorem last_spelling_wins (valid : EnvVar.isName name = true)
    (chosen : specialOf? (appConfigs s d) d.spec.target = some special)
    (spelled : spells name key = true) (inside : special.spec.entries.contains key = true)
    (unshared : ∀ shared ∈ d.spec.configs, EnvVar.normalizeName shared ≠ name) :
    ∃ c key value, resolve s d = some c ∧ special.spec.entries.Last (spells name) key value ∧
      ((∀ other, spells name other = true → (baseEntries s d).contains other = true →
        other ≤ key) → c.data.get? name = some value) ∧
      ∀ other value', (baseEntries s d).Last (spells name) other value' → key < other →
        c.data.get? name = some value' := by
  obtain ⟨c, resolved, found⟩ := resolve_special chosen unshared
  obtain ⟨key, value, last⟩ := Dict.exists_last spelled inside
  refine ⟨c, key, value, resolved, last, fun le => ?_, fun other value' last' lt => ?_⟩
  · rw [found, get?_environment_iff valid]
    exact ⟨key, last.overlay le⟩
  · rw [found, get?_environment_iff valid]
    exact ⟨other, last.overlaid last' lt⟩

namespace Sample

open Cutover.Sample

def config (name : String) (labels : List (String × String)) (key level : String) : AppConfig :=
  { info := { Meta.fresh "" name with labels := Dict.ofList labels }
    spec := ⟨.app, Dict.ofList [(key, level)]⟩
    status := () }

/-- The store once the base of an application and its config for the target are published, each
with one key. -/
def published (base special : String) : Store :=
  let s := Store.empty 100
  let s := s.commit (s.accepted (config "web" [(Label.app, "web")] base "info")) ∅ .created
  s.commit (s.accepted (config "web-prod" [(Label.app, "web"), (Label.target, "prod")] special
    "warn")) ∅ .created

theorem isName_level : EnvVar.isName "LOG_LEVEL" = true := by decide

theorem spells_level : spells "LOG_LEVEL" "log-level" = true := by decide +kernel

theorem special_published : ((specialOf? (appConfigs (published "LOG_LEVEL" "log-level")
    (descriptor 4)) "prod").map (·.spec.entries)) = some (Dict.ofList [("log-level", "warn")]) := by
  decide +kernel

theorem baseEntries_published : baseEntries (published "LOG_LEVEL" "log-level") (descriptor 4) =
    Dict.ofList [("LOG_LEVEL", "info")] := by decide +kernel

/-- The level for the target stands, as capital letters come before small ones. -/
theorem special_level_stands : ∃ c, resolve (published "LOG_LEVEL" "log-level") (descriptor 4) =
    some c ∧ c.data.get? "LOG_LEVEL" = some "warn" := by
  obtain ⟨special, chosen, entries⟩ := Option.map_eq_some_iff.1 special_published
  obtain ⟨c, key, value, resolved, last, wins, -⟩ :=
    last_spelling_wins isName_level chosen spells_level (by rw [entries]; rfl) nofun
  rw [entries] at last
  obtain ⟨rfl, rfl⟩ := last.unique (Dict.last_singleton spells_level)
  refine ⟨c, resolved, wins fun other _ inside => ?_⟩
  rw [baseEntries_published] at inside
  rcases (Dict.contains_insert ∅ _ _ _).1 inside with rfl | inside
  · decide
  · cases inside

end Sample

/-- The base spells a name with an underscore and the config for the target with a hyphen, which
comes first.  The name gets the level of the base, which no entry for the target has. -/
theorem base_spelled_later_wins : ∃ (s : Store) (d : Descriptor) (special : AppConfig)
    (c : Configuration), specialOf? (appConfigs s d) d.spec.target = some special ∧
    special.spec.entries.entries = [("log-level", "warn")] ∧
    EnvVar.normalizeName "log-level" = "LOG_LEVEL" ∧ EnvVar.isName "LOG_LEVEL" = true ∧
    d.spec.configs = [] ∧ resolve s d = some c ∧ c.data.get? "LOG_LEVEL" = some "info" := by
  have overlaid : (specialOf? (appConfigs (Sample.published "log_level" "log-level")
      (Cutover.Sample.descriptor 4)) "prod").map (·.spec.entries.entries) =
        some [("log-level", "warn")] := by decide +kernel
  have level : (resolve (Sample.published "log_level" "log-level") (Cutover.Sample.descriptor 4)).map
      (·.data.get? "LOG_LEVEL") = some (some "info") := by decide +kernel
  obtain ⟨special, chosen, entries⟩ := Option.map_eq_some_iff.1 overlaid
  obtain ⟨c, resolved, found⟩ := Option.map_eq_some_iff.1 level
  exact ⟨_, _, special, c, chosen, entries, of_decide_eq_true Sample.spells_level,
    Sample.isName_level, rfl, resolved, found⟩

end Configuration
end Cutover
