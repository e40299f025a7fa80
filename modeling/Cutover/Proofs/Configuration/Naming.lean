/-
# Cutover.Proofs.Configuration.Naming -- what the name of a config map stands for

A config map is named by the first digits of the hash of its entries, and nobody compares the
entries (`ensured`).  So the map under the name of a configuration has that configuration's
entries exactly if the name was free or the map that was there had them
(`map_holds_first_content`).  Of several configurations with one name it has those of the first
(`data_ensuredAll`).

Hashes differ and their first digits do not (`shared_name_keeps_first_content`).
-/
import Cutover.Configuration
import Cutover.Proofs.Ramp.Rollout
import Cutover.Proofs.Store.Write

namespace Cutover.Configuration

set_option autoImplicit false

open Pass Store

variable {s : Store} {d : Descriptor} {c : Configuration}

/-! ## One configuration -/

/-- The store once a configuration has been given its map: one that is there stays as it is. -/
def ensured (s : Store) (d : Descriptor) (c : Configuration) : Store :=
  if (s.getByKey .configMaps (mapFor d c).key).isSome then s
  else s.commit (s.accepted (mapFor d c)) ∅ .created

theorem ensureMap_eq (s : Store) (d : Descriptor) (c : Configuration) :
    ensureMap d c s = .ok (c.mapName d.spec.app) (ensured s d c) := by
  have same : s.get .configMaps d.targetNamespace (c.mapName d.spec.app) =
      s.getByKey .configMaps (mapFor d c).key := rfl
  unfold ensureMap ensured
  simp only [same]
  cases found : s.getByKey .configMaps (mapFor d c).key with
  | some m => rfl
  | none =>
      simp only [create_eq found]
      rfl

/-- Nothing but a free name gets a map, which is that of the configuration. -/
theorem getByKey_ensured (s : Store) (d : Descriptor) (c : Configuration) (key : String) :
    (ensured s d c).getByKey .configMaps key = (s.getByKey .configMaps key).or
      (if (mapFor d c).key = key then some (s.accepted (mapFor d c)) else none) := by
  unfold ensured
  split
  · rename_i taken
    by_cases here : (mapFor d c).key = key
    · obtain ⟨m, found⟩ := Option.isSome_iff_exists.1 taken
      rw [here] at found
      rw [found]
      rfl
    · rw [if_neg here, Option.or_none]
  · rename_i free
    by_cases here : (mapFor d c).key = key
    · rw [← here, Option.not_isSome_iff_eq_none.1 free, if_pos rfl]
      exact getByKey_commit_self s (s.accepted (mapFor d c)) ∅ .created
    · rw [if_neg here, Option.or_none]
      exact getByKey_commit_of_ne s (s.accepted (mapFor d c)) ∅ .created (Ne.symm here)

/-! ## One configuration after the other -/

/-- Give several configurations their maps, each for a descriptor. -/
def ensureAll (es : List (Descriptor × Configuration)) : Pass StoreError (List String) :=
  es.mapM fun e => ensureMap e.1 e.2

def ensuredAll (s : Store) (es : List (Descriptor × Configuration)) : Store :=
  es.foldl (fun s e => ensured s e.1 e.2) s

theorem ensureAll_eq (s : Store) (es : List (Descriptor × Configuration)) :
    ensureAll es s = .ok (es.map fun e => e.2.mapName e.1.spec.app) (ensuredAll s es) := by
  unfold ensureAll
  induction es generalizing s with
  | nil => rfl
  | cons e rest ih =>
      rw [List.mapM_cons]
      show EStateM.bind (ensureMap e.1 e.2) _ s = _
      unfold EStateM.bind
      rw [ensureMap_eq]
      show EStateM.bind (rest.mapM fun e => ensureMap e.1 e.2) _ (ensured s e.1 e.2) = _
      unfold EStateM.bind
      rw [ih]
      rfl

/-- **The first content stays.**  Under every key there is what was there, and else the entries of
the first configuration that was given its map under that key. -/
theorem data_ensuredAll (s : Store) (es : List (Descriptor × Configuration)) (key : String) :
    ((ensuredAll s es).getByKey .configMaps key).map (·.spec.data) =
      ((s.getByKey .configMaps key).map (·.spec.data)).or
        ((es.find? fun e => (mapFor e.1 e.2).key = key).map (·.2.data)) := by
  induction es generalizing s with
  | nil => simp [ensuredAll]
  | cons e rest ih =>
      show ((ensuredAll (ensured s e.1 e.2) rest).getByKey .configMaps key).map _ = _
      rw [ih, getByKey_ensured]
      by_cases here : (mapFor e.1 e.2).key = key
      · have found : (e :: rest).find? (fun e => (mapFor e.1 e.2).key = key) = some e :=
          List.find?_cons_of_pos (decide_eq_true here)
        rw [if_pos here, found]
        cases s.getByKey .configMaps key <;> rfl
      · rw [if_neg here, Option.or_none, List.find?_cons_of_neg (by simpa using here)]

/-! ## What a name stands for -/

/-- The map under the name of a configuration, once it has been given one. -/
theorem exists_map_ensured (s : Store) (d : Descriptor) (c : Configuration) :
    ∃ m, (ensured s d c).getByKey .configMaps (mapFor d c).key = some m ∧
      (∀ m₀, s.getByKey .configMaps (mapFor d c).key = some m₀ → m = m₀ ∧ ensured s d c = s) ∧
      (s.getByKey .configMaps (mapFor d c).key = none → m = s.accepted (mapFor d c)) := by
  have stands := getByKey_ensured s d c (mapFor d c).key
  rw [if_pos rfl] at stands
  cases found : s.getByKey .configMaps (mapFor d c).key with
  | none =>
      rw [found, Option.none_or] at stands
      exact ⟨_, stands, nofun, fun _ => rfl⟩
  | some m₀ =>
      rw [found, Option.some_or] at stands
      have same : ensured s d c = s := by
        unfold ensured
        rw [found]
        rfl
      exact ⟨m₀, stands, fun m stored => ⟨Option.some.inj stored, same⟩, nofun⟩

/-- The map under the name of one of several configurations, once they have been given theirs. -/
theorem exists_map_ensuredAll (s : Store) {es : List (Descriptor × Configuration)}
    (member : (d, c) ∈ es) :
    ∃ m first, (ensuredAll s es).getByKey .configMaps (mapFor d c).key = some m ∧
      (es.find? fun e => (mapFor e.1 e.2).key = (mapFor d c).key) = some first ∧
      m.spec.data = ((s.getByKey .configMaps (mapFor d c).key).map (·.spec.data)).getD
        first.2.data := by
  have asked : (es.find? fun e => (mapFor e.1 e.2).key = (mapFor d c).key).isSome = true :=
    List.find?_isSome.2 ⟨(d, c), member, decide_eq_true rfl⟩
  obtain ⟨first, found⟩ := Option.isSome_iff_exists.1 asked
  have stands := data_ensuredAll s es (mapFor d c).key
  rw [found, Option.map_some, Option.or_some] at stands
  obtain ⟨m, there, data⟩ := Option.map_eq_some_iff.1 stands
  exact ⟨m, first, there, found, data⟩

/-- **What the name of a config map stands for.**  A configuration is always given a name, and
there is a map under it in the namespace of the descriptor.  The map has the configuration's
entries exactly if the map that was there before, if there was one, had them.  Such a map stays,
and the store with it; else the map is the configuration's own.

Once several configurations have been given their maps there are under the name of each of them the
entries of the map that was there at first, or else of the first configuration of that name. -/
theorem map_holds_first_content (s : Store) (d : Descriptor) (c : Configuration) :
    let name := c.mapName d.spec.app
    (∃ s' m, ensureMap d c s = .ok name s' ∧ s'.get .configMaps d.targetNamespace name = some m ∧
      (m.spec.data = c.data ↔ ∀ m₀, s.get .configMaps d.targetNamespace name = some m₀ →
        m₀.spec.data = c.data) ∧
      (∀ m₀, s.get .configMaps d.targetNamespace name = some m₀ → m = m₀ ∧ s' = s) ∧
      (s.get .configMaps d.targetNamespace name = none → m = s.accepted (mapFor d c))) ∧
    ∀ es : List (Descriptor × Configuration), (d, c) ∈ es → ∃ names s' m first,
      ensureAll es s = .ok names s' ∧ s'.get .configMaps d.targetNamespace name = some m ∧
      (es.find? fun e => objectKey e.1.targetNamespace (e.2.mapName e.1.spec.app) =
        objectKey d.targetNamespace name) = some first ∧
      m.spec.data = ((s.get .configMaps d.targetNamespace name).map (·.spec.data)).getD
        first.2.data := by
  refine ⟨?_, fun es member => ?_⟩
  · obtain ⟨m, stands, stays, own⟩ := exists_map_ensured s d c
    refine ⟨_, m, ensureMap_eq s d c, stands, ?_, stays, own⟩
    constructor
    · intro holds m₀ found
      rw [← (stays m₀ found).1]
      exact holds
    · intro all
      cases found : s.getByKey .configMaps (mapFor d c).key with
      | none =>
          rw [own found]
          rfl
      | some m₀ =>
          rw [(stays m₀ found).1]
          exact all m₀ found
  · obtain ⟨m, first, stands, found, data⟩ := exists_map_ensuredAll s member
    exact ⟨_, _, m, first, ensureAll_eq s es, stands, found, data⟩

namespace Sample

/-- The configuration of an application with one entry. -/
def limited (limit : String) : Configuration := ofData (Dict.ofList [("LIMIT", limit)])

/-- The hashes of two texts begin with the same six digits. -/
theorem mapName_limited : (limited "848").mapName "web" = "web-349108" ∧
    (limited "5515").mapName "web" = "web-349108" := by decide +kernel

/-- The descriptor of the application. -/
def web : Descriptor := Cutover.Sample.descriptor 4

theorem data_limited_ne : (limited "848").data ≠ (limited "5515").data := by decide

/-- The later of two configurations of one name has the entries of the earlier one under it. -/
theorem earlier_limit_stands : ∃ names s' m,
    ensureAll [(web, limited "848"), (web, limited "5515")] (Store.empty 100) = .ok names s' ∧
    s'.get .configMaps "prod" ((limited "5515").mapName "web") = some m ∧
    m.spec.data = (limited "848").data := by
  obtain ⟨names, s', m, first, done, stands, found, data⟩ :=
    (map_holds_first_content (Store.empty 100) web (limited "5515")).2
      [(web, limited "848"), (web, limited "5515")] (by simp)
  have asked : objectKey web.targetNamespace ((limited "848").mapName web.spec.app) =
      objectKey web.targetNamespace ((limited "5515").mapName web.spec.app) :=
    congrArg (objectKey _) (mapName_limited.1.trans mapName_limited.2.symm)
  have earlier : first = (web, limited "848") :=
    Option.some.inj (found.symm.trans (List.find?_cons_of_pos (decide_eq_true asked)))
  refine ⟨names, s', m, done, stands, data.trans ?_⟩
  rw [earlier]
  rfl

end Sample

/-- Two configurations with different entries have one name.  The second one is told that name,
and under it are the entries of the first. -/
theorem shared_name_keeps_first_content :
    ∃ (d : Descriptor) (data data' : Dict String) (s s' : Store) (name : String) (m : ConfigMap),
      ensureMap d (ofData data) (Store.empty 100) = .ok name s ∧
      ensureMap d (ofData data') s = .ok name s' ∧
      s'.get .configMaps d.targetNamespace name = some m ∧ m.spec.data = data ∧ data ≠ data' := by
  obtain ⟨first, second⟩ := Sample.mapName_limited
  have one := ensureMap_eq (Store.empty 100) Sample.web (Sample.limited "848")
  have two := ensureMap_eq (ensured (Store.empty 100) Sample.web (Sample.limited "848")) Sample.web
    (Sample.limited "5515")
  have key : (mapFor Sample.web (Sample.limited "848")).key = "prod/web-349108" :=
    congrArg (objectKey "prod") first
  have own := getByKey_ensured (Store.empty 100) Sample.web (Sample.limited "848")
    "prod/web-349108"
  have stands := getByKey_ensured (ensured (Store.empty 100) Sample.web (Sample.limited "848"))
    Sample.web (Sample.limited "5515") "prod/web-349108"
  rw [if_pos key, show (Store.empty 100).getByKey .configMaps "prod/web-349108" = none from rfl,
    Option.none_or] at own
  rw [own, Option.some_or] at stands
  exact ⟨Sample.web, _, _, _, _, "web-349108", _, first ▸ one, second ▸ two, stands, rfl,
    Sample.data_limited_ne⟩

end Cutover.Configuration
