/-
# Cutover.Proofs.Deployment.Domain -- the part of a store that a pass keeps to

The `domain` of a descriptor is the descriptor itself and all keys at which objects are derived
for its application in its target.  Builds and published configs are read by everybody.

That a pass finds nothing else is due to the labels of derived objects: what bears the application
and the target of a descriptor stands in its domain (`derivedLaw`).  The law also keeps the
separator out of labels, so that the entries of one domain are no texts of another
(`disjoint_domain`).
-/
import Cutover.Proofs.Deployment.Lineup
import Cutover.Proofs.Release.Naming
import Cutover.Proofs.Store.Footprint

namespace Cutover.Deployment

set_option autoImplicit false

open Pass Store

/-! ## Labels of derived objects -/

/-- No label's name or value has the separator. -/
def FreeLabels (labels : Dict String) : Prop := ∀ label value, labels.get? label = some value →
  '\x1f' ∉ label.toList ∧ '\x1f' ∉ value.toList

namespace FreeLabels

variable {labels : Dict String} {label value : String}

theorem empty : FreeLabels ∅ := fun _ _ has => by cases has

theorem insert (free : FreeLabels labels) (label_free : '\x1f' ∉ label.toList)
    (value_free : '\x1f' ∉ value.toList) : FreeLabels (labels.insert label value) := by
  intro name text has
  rw [Dict.get?_insert] at has
  split at has
  · rename_i same
    cases has
    exact ⟨same ▸ label_free, value_free⟩
  · exact free name text has

theorem erase (free : FreeLabels labels) (label : String) : FreeLabels (labels.erase label) := by
  intro name text has
  rw [Dict.get?_erase] at has
  split at has
  · cases has
  · exact free name text has

theorem ofTarget {app target : String} (named : IsName app) (named' : IsName target) :
    FreeLabels (Label.ofTarget app target) := by
  have app_free : FreeLabels ((∅ : Dict String).insert Label.app app) :=
    empty.insert (by decide) named.2
  have target_free := app_free.insert (show '\x1f' ∉ Label.target.toList by decide) named'.2
  exact target_free.insert (show '\x1f' ∉ Label.managedBy.toList by decide)
    (show '\x1f' ∉ Label.manager.toList by decide)

end FreeLabels

/-- An object that is derived for an application in a target stands in its place and says so in its
labels. -/
structure Derived (k : Kind) (app target key : String) (labels : Dict String) : Prop where
  place : Place k app target key
  accepts : (Selector.ofTarget app target).accepts labels = true
  free : FreeLabels labels

/-- The names that a descriptor has are free of slashes and separators. -/
structure Named (spec : DescriptorSpec) : Prop where
  app : IsName spec.app
  target : IsName spec.target

/-- Releases may be named after a build: its key is free of separators, and it is dated in a year of
four digits. -/
structure Datable (key : String) (spec : BuildSpec) : Prop where
  free : '\x1f' ∉ key.toList
  year : 0 ≤ (Release.minuteOf spec.createdAt).year ∧
    (Release.minuteOf spec.createdAt).year ≤ 9999

/-- What is asked of those who write descriptors and builds. -/
def Admissible : (k : Kind) → String → k.Spec → Prop
  | .descriptors, _, spec => Named spec
  | .builds, key, spec => Datable key spec
  | _, _, _ => True

/-- Descriptors and builds are as they should be, and objects of the kinds that passes derive are
derived for some application in some target. -/
structure Kept (k : Kind) (key : String) (labels : Dict String) (spec : k.Spec) : Prop where
  admissible : Admissible k key spec
  derived : k.width?.isSome = true →
    ∃ app target, IsName app ∧ IsName target ∧ Derived k app target key labels

/-- The law that passes keep, and those who write descriptors, builds and configs. -/
def derivedLaw : ObjectLaw := Kept

theorem isSome_of_place {k : Kind} {app target key : String} (place : Place k app target key) :
    k.width?.isSome = true := by
  obtain ⟨suffix, width, -⟩ := place
  rw [width]
  rfl

/-- A key in a place is not that of a descriptor or build, of which more is asked. -/
theorem admissible_of_place {k : Kind} {app target key : String} (place : Place k app target key)
    (spec : k.Spec) : Admissible k key spec := by
  have derived := isSome_of_place place
  cases k <;> trivial

/-- The labels of a derived object are those of one application and one target only. -/
theorem Derived.of_law {k : Kind} {app target key : String} {labels : Dict String} {spec : k.Spec}
    (law : derivedLaw k key labels spec) (kind : k.width?.isSome = true)
    (accepts : (Selector.ofTarget app target).accepts labels = true) :
    Derived k app target key labels := by
  obtain ⟨app', target', -, -, derived⟩ := law.derived kind
  have own := Selector.accepts_ofTarget.1 derived.accepts
  have asked := Selector.accepts_ofTarget.1 accepts
  obtain rfl : app' = app := Option.some.inj (own.1.symm.trans asked.1)
  obtain rfl : target' = target := Option.some.inj (own.2.symm.trans asked.2)
  exact derived

/-! ## Domains -/

/-- The part of a store that a pass over a descriptor keeps to. -/
def domain (d : Descriptor) : Footprint where
  cell k key := k = .descriptors ∧ key = d.key ∨ Place k d.spec.app d.spec.target key
  text text := ∃ k label value key, Place k d.spec.app d.spec.target key ∧
    '\x1f' ∉ label.toList ∧ '\x1f' ∉ value.toList ∧ text = Index.entry k label value key
  shared k := k = .builds ∨ k = .appConfigs
  unshared k key inside shared := by
    have none_ : k ≠ .descriptors ∧ k.width?.isSome = false := by
      rcases shared with rfl | rfl <;> decide
    rcases inside with ⟨rfl, -⟩ | place
    · exact none_.1 rfl
    · exact Bool.false_ne_true (none_.2.symm.trans (isSome_of_place place))

variable {d d' : Descriptor} {k : Kind} {s s' u u' : Store}

/-- Lawful entries of a place are texts of its domain. -/
theorem files_domain {key : String} (place : Place k d.spec.app d.spec.target key) :
    (domain d).Files derivedLaw k key := by
  intro labels spec law label value has
  obtain ⟨_, _, -, -, derived⟩ := law.derived (isSome_of_place place)
  obtain ⟨label_free, value_free⟩ := derived.free label value has
  exact ⟨k, label, value, key, place, label_free, value_free, rfl⟩

theorem fits_domain (named : Named d.spec) {o : Object k}
    (derived : Derived k d.spec.app d.spec.target o.key o.info.labels) :
    InStep.Fits (domain d) derivedLaw o where
  cell := .inr derived.place
  lawful := ⟨admissible_of_place derived.place _, fun _ => ⟨_, _, named.app, named.target, derived⟩⟩
  files := files_domain derived.place

/-- **Domains of different applications or targets have nothing in common.** -/
theorem disjoint_domain (named : Named d.spec) (named' : Named d'.spec) (keys : d.key ≠ d'.key)
    (different : ¬ (d.spec.app = d'.spec.app ∧ d.spec.target = d'.spec.target)) :
    (domain d).Disjoint (domain d') where
  cells := by
    rintro k key (⟨rfl, rfl⟩ | place) (⟨kind, same⟩ | place')
    · exact keys same
    · exact absurd (isSome_of_place place') (by decide)
    · subst kind
      exact absurd (isSome_of_place place) (by decide)
    · exact different (Place.eq_of_place named.app named.target named'.app named'.target place
        place')
  texts := by
    rintro text ⟨k, label, value, key, place, label_free, value_free, rfl⟩
      ⟨k', label', value', key', place', label_free', value_free', same⟩
    have key_free := Place.separator_not_mem named.app named.target place
    have lists := congrArg String.toList same
    rw [Index.toList_entry, Index.toList_entry] at lists
    obtain rfl : k = k' := Index.kind_eq_of_name_eq
      (Index.append_cons_cancel (Index.separator_not_mem_name _) (Index.separator_not_mem_name _)
        lists).1
    obtain rfl := (Index.entry_eq_entry label_free value_free key_free same.symm).2
    exact different (Place.eq_of_place named.app named.target named'.app named'.target place place')
  shared _ := Iff.rfl

/-- A query by application and target finds the same in stores alike in the domain. -/
theorem matching_domain (named : Named d.spec) (twins : (domain d).Twins derivedLaw s u)
    (kind : k.width?.isSome = true) :
    u.matching k (Selector.ofTarget d.spec.app d.spec.target) =
      s.matching k (Selector.ofTarget d.spec.app d.spec.target) := by
  refine twins.matching fun key labels spec law accepts => ?_
  have derived := Derived.of_law law kind accepts
  exact ⟨.inr derived.place,
    k, Label.app, d.spec.app, key, derived.place, by decide, named.app.2, rfl⟩

theorem derived_of_mem_matching (lawful : s.Lawful derivedLaw) (kind : k.width?.isSome = true)
    {o : Object k} (inside : o ∈ s.matching k (Selector.ofTarget d.spec.app d.spec.target)) :
    Derived k d.spec.app d.spec.target o.key o.info.labels := by
  obtain ⟨found, -, app_eq, target_eq⟩ := (mem_ofTarget lawful.sound).1 inside
  exact Derived.of_law (lawful.objects k _ o found) kind
    (Selector.accepts_ofTarget.2 ⟨app_eq, target_eq⟩)

/-! ## Releases of a descriptor -/

/-- A release that is derived for a descriptor. -/
abbrev Belongs (d : Descriptor) (r : Release) : Prop :=
  Derived .releases d.spec.app d.spec.target r.key r.info.labels

/-- The hash of a configuration is the digest of its entries. -/
def Hashed (config : Option (Configuration × String)) : Prop :=
  ∀ c ∈ config, ∃ data, c.1 = .ofData data

theorem belongs_cut (named : Named d.spec) {build : Build} (datable : Datable build.key build.spec)
    {config : Option (Configuration × String)} (hashed : Hashed config) : Belongs d
      (Release.cut d build d.spec.fingerprint (config.map fun c => (c.1.hash, c.2))) where
  place := Place.release _ _ datable.year _
  accepts := accepts_cut d build _ _
  free := by
    have base : FreeLabels (((Label.ofTarget d.spec.app d.spec.target).insert Label.build
        build.name).insert Label.targetHash d.spec.fingerprint) :=
      ((FreeLabels.ofTarget named.app named.target).insert (by decide)
        (separator_not_mem_of_objectKey datable.free)).insert
        (by decide) (Digest.isName_hexOf _).2
    cases config with
    | none => exact base
    | some c =>
        obtain ⟨data, same⟩ := hashed c rfl
        refine base.insert (by decide) ?_
        rw [same]
        exact (Digest.isName_hexOf _).2

theorem belongs_mark {r : Release} (belongs : Belongs d r) (p : Ramp.Plan)
    (desired timeout now i : Nat) : Belongs d (p.mark i (p.assign desired timeout now i r)) := by
  have info : (p.mark i (p.assign desired timeout now i r)).info = { r.info with
      labels := (p.mark i (p.assign desired timeout now i r)).info.labels } := by
    unfold Ramp.Plan.mark
    simp only [Ramp.info_assign]
  have key : (p.mark i (p.assign desired timeout now i r)).key = r.key := by
    unfold Object.key
    rw [info]
    rfl
  rw [Belongs, key]
  unfold Ramp.Plan.mark
  simp only [Ramp.info_assign]
  split
  · exact ⟨belongs.place, accepts_insert _ _ (by decide) (by decide) belongs.accepts,
      belongs.free.insert (by decide) (by decide)⟩
  · refine ⟨belongs.place, ?_, belongs.free.erase _⟩
    have own := Selector.accepts_ofTarget.1 belongs.accepts
    rw [Selector.accepts_ofTarget, Dict.get?_erase_of_ne _ (by decide),
      Dict.get?_erase_of_ne _ (by decide)]
    exact own

theorem ne_nil_of_pass {rs : List Release} {now : Nat} {result : Ramp.Result}
    (passed : Ramp.pass d rs now = .ok result) : rs ≠ [] := by
  rintro rfl
  rw [Ramp.pass_eq] at passed
  cases passed

/-- What the ramp makes of the releases of a descriptor are releases of it. -/
theorem belongs_of_pass {rs : List Release} {now : Nat} {result : Ramp.Result}
    (passed : Ramp.pass d rs now = .ok result) (belong : ∀ r ∈ rs, Belongs d r) :
    ∀ r ∈ result.releases, Belongs d r := by
  by_cases moves : Ramp.Moves d rs now
  · obtain ⟨p, planned, passed'⟩ := moves.exists_plan
    obtain rfl := Except.ok.inj (passed.symm.trans passed')
    rw [Ramp.releases_carryOut (Ramp.planOf?_sound planned)]
    intro r inside
    obtain ⟨i, at_⟩ := List.getElem?_of_mem inside
    obtain ⟨o, old, rfl⟩ := Ramp.exists_of_spread_getElem? at_
    exact belongs_mark (belong o (List.mem_of_getElem? old)) p _ _ _ _
  · obtain ⟨outcome, passed'⟩ := Ramp.pass_of_not_moves (ne_nil_of_pass passed) moves
    obtain rfl := Except.ok.inj (passed.symm.trans passed')
    exact belong

end Cutover.Deployment
