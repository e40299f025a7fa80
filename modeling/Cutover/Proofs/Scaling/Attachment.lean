/-
# Cutover.Proofs.Scaling.Attachment -- one autoscaler for a descriptor, or none

Autoscalers are found by their labels and stored under a name, and these two have to say the same:
in a `Tidy` store every autoscaler stands under the key that is derived from the application and the
target in its labels, and the index has all its entries.  Then a query by application and target
finds what stands under one key (`Tidy.matching_eq`), so that there is at most one to find, and it
is the one that a new one would be stored in place of.

Calls of the coordinator keep a store tidy (`ends_reconcile`), and so do writes of statuses, which
leave labels and the index as they are (`Tidy.restate`).  A store without autoscalers is tidy.
-/
import Cutover.Proofs.Deployment.Domain
import Cutover.Proofs.Store.Removal
import Cutover.Scaling.Binding

namespace Cutover

set_option autoImplicit false

open Pass Store

namespace Binding

/-! ## Autoscalers and their keys -/

/-- The key of the autoscaler of an application in a target. -/
def keyFor (app target : String) : String := objectKey target (scalerName app)

/-- The autoscaler is that of an application in a target, and steers a release. -/
structure Binds (app target release : String) (a : Autoscaler) : Prop where
  ns : a.info.ns = target
  name : a.info.name = scalerName app
  labels : a.info.labels = (Label.ofTarget app target).insert Label.release release
  steers : a.spec.release = release
  bounds : 1 ≤ a.spec.minReplicas ∧ a.spec.minReplicas ≤ a.spec.maxReplicas

namespace Binds

variable {app target release : String} {a : Autoscaler}

theorem key (binds : Binds app target release a) : a.key = keyFor app target := by
  unfold Object.key Meta.key
  rw [binds.ns, binds.name]
  rfl

theorem label (binds : Binds app target release a) : a.label? Label.release = some release := by
  unfold Object.label?
  rw [binds.labels, Dict.get?_insert_self]

theorem accepts (binds : Binds app target release a) :
    (Selector.ofTarget app target).accepts a.info.labels = true := by
  rw [binds.labels]
  exact Deployment.accepts_insert _ _ (by decide) (by decide)
    (Deployment.accepts_ofTarget_self app target)

/-- An autoscaler that carries the labels of an application in a target is theirs. -/
theorem eq_of_accepts (binds : Binds app target release a) {app' target' : String}
    (accepts : (Selector.ofTarget app' target').accepts a.info.labels = true) :
    app' = app ∧ target' = target := by
  obtain ⟨app_eq, target_eq⟩ := Selector.accepts_ofTarget.1 binds.accepts
  obtain ⟨app_eq', target_eq'⟩ := Selector.accepts_ofTarget.1 accepts
  exact ⟨Option.some.inj (app_eq'.symm.trans app_eq),
    Option.some.inj (target_eq'.symm.trans target_eq)⟩

end Binds

theorem binds_autoscalerFor (d : Descriptor) (r : Release) :
    Binds d.spec.app d.spec.target r.name (autoscalerFor d r) where
  ns := rfl
  name := rfl
  labels := rfl
  steers := rfl
  bounds := ⟨Nat.le_max_right .., Nat.le_max_right ..⟩

theorem eq_of_keyFor_eq {app target app' target' : String} (named : IsName app)
    (named' : IsName target) (named_app : IsName app') (named_target : IsName target')
    (same : keyFor app target = keyFor app' target') : app = app' ∧ target = target' := by
  have place : Place .autoscalers app' target' (keyFor app target) :=
    same ▸ Place.autoscaler app' target'
  exact Place.eq_of_place named named' named_app named_target (Place.autoscaler app target) place

theorem separator_not_mem_keyFor {app target : String} (named : IsName app)
    (named' : IsName target) : '\x1f' ∉ (keyFor app target).toList :=
  Place.separator_not_mem named named' (Place.autoscaler app target)

/-! ## Tidy stores -/

variable {s s' : Store} {d : Descriptor} {rs : List Release}

/-- The autoscaler is that of some application in some target, and the index has its entries. -/
structure Fits (index : Index) (key : String) (a : Autoscaler) : Prop where
  bound : ∃ app target release, IsName app ∧ IsName target ∧ Binds app target release a
  listed : ∀ label value, a.label? label = some value →
    Index.entry .autoscalers label value key ∈ index.keys

/-- The autoscaler of an application in a target. -/
def attached? (s : Store) (app target : String) : Option Autoscaler :=
  (s.getByKey .autoscalers (keyFor app target)).filter fun a =>
    (Selector.ofTarget app target).accepts a.info.labels

/-- All autoscalers of the store are where they belong, and can be found. -/
structure Tidy (s : Store) : Prop where
  sound : s.Sound
  fits : ∀ key (a : Autoscaler), s.getByKey .autoscalers key = some a → Fits s.index key a

theorem tidy_of_bare (sound : s.Sound) (bare : s.list .autoscalers = []) : Tidy s where
  sound := sound
  fits key a found := by
    obtain rfl := sound.keyed .autoscalers key a found
    have member := (mem_list sound).2 found
    rw [bare] at member
    cases member

/-- Different objects of which there is none but what one may be. -/
theorem eq_toList {xs : List Autoscaler} (nodup : (xs.map (·.key)).Nodup) {held : Option Autoscaler}
    (same : ∀ a, a ∈ xs ↔ held = some a) : xs = held.toList := by
  have perm : xs.Perm held.toList := by
    refine (List.perm_ext_iff_of_nodup (List.Nodup.of_map _ nodup) ?_).2 fun a => ?_
    · cases held <;> simp
    · rw [same, Option.mem_toList]
  cases held with
  | none => exact perm.eq_nil
  | some a => exact List.perm_singleton.1 perm

namespace Tidy

variable {app target : String} {a : Autoscaler}

/-- Under the key for an application in a target there is nothing but their autoscaler. -/
theorem binds (tidy : Tidy s) (named : IsName app) (named' : IsName target)
    (found : s.getByKey .autoscalers (keyFor app target) = some a) :
    ∃ release, Binds app target release a := by
  obtain ⟨app', target', release, named_app, named_target, binds⟩ := (tidy.fits _ a found).bound
  have key := tidy.sound.keyed .autoscalers _ a found
  rw [binds.key] at key
  obtain ⟨rfl, rfl⟩ := eq_of_keyFor_eq named_app named_target named named' key
  exact ⟨release, binds⟩

/-- An autoscaler that carries their labels is theirs. -/
theorem attached?_eq_some (tidy : Tidy s) : attached? s app target = some a ↔
    s.getByKey .autoscalers a.key = some a ∧
      (Selector.ofTarget app target).accepts a.info.labels = true := by
  unfold attached?
  rw [Option.filter_eq_some_iff]
  constructor
  · rintro ⟨found, accepts⟩
    rw [tidy.sound.keyed .autoscalers _ a found]
    exact ⟨found, accepts⟩
  · rintro ⟨found, accepts⟩
    obtain ⟨_, _, _, -, -, binds⟩ := (tidy.fits _ a found).bound
    obtain ⟨rfl, rfl⟩ := binds.eq_of_accepts accepts
    rw [← binds.key]
    exact ⟨found, accepts⟩

theorem attached?_eq (tidy : Tidy s) (named : IsName app) (named' : IsName target) :
    attached? s app target = s.getByKey .autoscalers (keyFor app target) := by
  unfold attached?
  cases found : s.getByKey .autoscalers (keyFor app target) with
  | none => rfl
  | some a =>
      obtain ⟨release, binds⟩ := tidy.binds named named' found
      rw [Option.filter_some, if_pos binds.accepts]

/-- **There is one or none.** -/
theorem scan_eq (tidy : Tidy s) (app target : String) :
    s.scan .autoscalers (Selector.ofTarget app target) = (attached? s app target).toList :=
  eq_toList (nodup_scan tidy.sound) fun _ =>
    (mem_scan tidy.sound).trans tidy.attached?_eq_some.symm

/-- A query finds it. -/
theorem matching_eq (tidy : Tidy s) (app target : String) :
    s.matching .autoscalers (Selector.ofTarget app target) = (attached? s app target).toList := by
  refine eq_toList (nodup_matching tidy.sound (Selector.entries_ofTarget ..)) fun a => ?_
  rw [mem_ofTarget tidy.sound, tidy.attached?_eq_some, Selector.accepts_ofTarget]
  constructor
  · rintro ⟨found, -, labels⟩
    exact ⟨found, labels⟩
  · rintro ⟨found, labels⟩
    exact ⟨found, (tidy.fits _ a found).listed _ _ labels.1, labels⟩

/-! ## What keeps a store tidy -/

/-- Nothing has happened to autoscalers but under one key. -/
structure Turns (key : String) (s s' : Store) : Prop where
  tidy : Tidy s'
  there : ∀ other, other ≠ key → s'.getByKey .autoscalers other = s.getByKey .autoscalers other

theorem Turns.trans {s'' : Store} {key : String} (first : Turns key s s')
    (second : Turns key s' s'') : Turns key s s'' :=
  ⟨second.tidy, fun other ne => (second.there other ne).trans (first.there other ne)⟩

/-- The autoscalers of other applications or targets are as they were. -/
theorem Turns.attached? (turns : Turns (keyFor app target) s s') (tidy : Tidy s)
    (named : IsName app) (named' : IsName target) {app' target' : String}
    (other : ¬ (app' = app ∧ target' = target)) :
    Binding.attached? s' app' target' = Binding.attached? s app' target' := by
  have away {t : Store} (tidy : Tidy t) {a : Autoscaler}
      (found : t.getByKey .autoscalers a.key = some a)
      (accepts : (Selector.ofTarget app' target').accepts a.info.labels = true) :
      a.key ≠ keyFor app target := by
    intro same
    obtain ⟨release, binds⟩ := tidy.binds named named' (same ▸ found)
    exact other (binds.eq_of_accepts accepts)
  refine Option.ext fun a => ?_
  rw [turns.tidy.attached?_eq_some, tidy.attached?_eq_some]
  constructor
  · rintro ⟨found, accepts⟩
    rw [turns.there _ (away turns.tidy found accepts)] at found
    exact ⟨found, accepts⟩
  · rintro ⟨found, accepts⟩
    rw [turns.there _ (away tidy found accepts)]
    exact ⟨found, accepts⟩

/-- Entries of other keys than a changed one are other texts. -/
theorem turns (tidy : Tidy s) (sound : s'.Sound) {key : String} (free : '\x1f' ∉ key.toList)
    (there : ∀ other, other ≠ key → s'.getByKey .autoscalers other = s.getByKey .autoscalers other)
    (entries : ∀ text, (∀ label value, text ≠ Index.entry .autoscalers label value key) →
      (text ∈ s'.index.keys ↔ text ∈ s.index.keys))
    (here : ∀ a : Autoscaler, s'.getByKey .autoscalers key = some a → Fits s'.index key a) :
    Turns key s s' where
  tidy := by
    refine ⟨sound, fun other a found => ?_⟩
    by_cases same : other = key
    · subst same
      exact here a found
    · rw [there other same] at found
      obtain ⟨bound, listed⟩ := tidy.fits other a found
      refine ⟨bound, fun label value has => (entries _ fun label' value' shared => ?_).2
        (listed label value has)⟩
      obtain ⟨app, target, release, named, named', binds⟩ := bound
      have key_eq := tidy.sound.keyed .autoscalers other a found
      rw [binds.key] at key_eq
      -- an entry ends in its key, and neither key has the separator
      have free' : '\x1f' ∉ other.toList := key_eq ▸ separator_not_mem_keyFor named named'
      let m : Mark := ⟨.autoscalers, label, value, other⟩
      let n : Mark := ⟨.autoscalers, label', value', key⟩
      exact same (Mark.key_eq_of_entry_eq (show '\x1f' ∉ m.key.toList from free')
        (show '\x1f' ∉ n.key.toList from free) shared)
  there := there

theorem restate (tidy : Tidy s) (restates : s.Restates s') (sound : s'.Sound) : Tidy s' := by
  cases restates with
  | same => exact tidy
  | later clock => exact ⟨sound, tidy.fits⟩
  | @written _ k key current status commits =>
      have index : s'.index = s.index := commits.index.trans (Index.relabel_self ..)
      refine ⟨sound, fun other a found => ?_⟩
      rw [index]
      by_cases here : Kind.autoscalers = k ∧ other = key
      · obtain ⟨rfl, rfl⟩ := here
        obtain rfl := Option.some.inj (commits.is.symm.trans found)
        obtain ⟨bound, listed⟩ := tidy.fits other current commits.was
        obtain ⟨app, target, release, named, named', binds⟩ := bound
        exact ⟨⟨app, target, release, named, named', binds.ns, binds.name, binds.labels,
          binds.steers, binds.bounds⟩, listed⟩
      · rw [commits.others _ _ here] at found
        exact tidy.fits other a found

end Tidy

/-! ## Calls of the coordinator -/

/-- Deleting autoscalers of a descriptor clears their key, if there are any. -/
theorem ends_clear (tidy : Tidy s) (named : Deployment.Named d.spec) {xs : List Autoscaler}
    (own : ∀ a ∈ xs, a.key = keyFor d.spec.app d.spec.target) :
    Ends (xs.forM remove) s fun _ s' => Tidy.Turns (keyFor d.spec.app d.spec.target) s s' ∧
      s'.getByKey .autoscalers (keyFor d.spec.app d.spec.target) =
        if xs = [] then s.getByKey .autoscalers (keyFor d.spec.app d.spec.target) else none := by
  let place (a : Autoscaler) : String × String := (a.info.ns, a.info.name)
  have keys {key : String} : key ∈ keysOf (xs.map place) ↔
      xs ≠ [] ∧ key = keyFor d.spec.app d.spec.target := by
    unfold keysOf
    rw [List.map_map, List.mem_map]
    constructor
    · rintro ⟨a, member, rfl⟩
      exact ⟨List.ne_nil_of_mem member, own a member⟩
    · rintro ⟨some_, rfl⟩
      obtain ⟨a, member⟩ := List.exists_mem_of_ne_nil xs some_
      exact ⟨a, member, own a member⟩
  have removes (a : Autoscaler) (t : Store) : Ends (remove a) t fun _ t' =>
      t' = (t.delete .autoscalers (place a).1 (place a).2).2 := ends_write rfl rfl
  refine (ends_forM_strip removes xs).mono fun _ s' same => ?_
  rw [same]
  refine ⟨tidy.turns (tidy.sound.strip .autoscalers _)
    (separator_not_mem_keyFor named.app named.target) ?_ ?_ ?_, ?_⟩
  · intro other ne
    rw [getByKey_strip, if_neg fun member => ne (keys.1 member).2]
  · intro text foreign
    refine mem_keys_strip fun key member => ?_
    rw [(keys.1 member).2]
    exact foreign
  · intro a found
    rw [getByKey_strip] at found
    split at found
    · cases found
    · rename_i away
      obtain rfl : xs = [] := Classical.byContradiction fun some_ => away (keys.2 ⟨some_, rfl⟩)
      exact tidy.fits _ a found
  · rw [getByKey_strip]
    by_cases none_ : xs = []
    · rw [if_neg fun member => (keys.1 member).1 none_, if_pos none_]
    · rw [if_pos (keys.2 ⟨none_, rfl⟩), if_neg none_]

/-- The autoscaler of a release has come under the key of a descriptor. -/
structure Attached (d : Descriptor) (r : Release) (s s' : Store) : Prop where
  turns : Tidy.Turns (keyFor d.spec.app d.spec.target) s s'
  bound : ∃ a : Autoscaler, s'.getByKey .autoscalers (keyFor d.spec.app d.spec.target) = some a ∧
    Binds d.spec.app d.spec.target r.name a

theorem ends_attach_free (tidy : Tidy s) (named : Deployment.Named d.spec) (r : Release)
    (free : s.getByKey .autoscalers (keyFor d.spec.app d.spec.target) = none) :
    Ends (apply (autoscalerFor d r)) s fun _ s' => Attached d r s s' := by
  have asks := binds_autoscalerFor d r
  have free' : s.getByKey .autoscalers (autoscalerFor d r).key = none := by rwa [asks.key]
  refine (ends_apply_free free').mono ?_
  rintro - s' ⟨-, rfl⟩
  have binds : Binds d.spec.app d.spec.target r.name (s.accepted (autoscalerFor d r)) :=
    ⟨asks.ns, asks.name, asks.labels, asks.steers, asks.bounds⟩
  have commits := commits_created free'
  rw [asks.key] at commits
  refine ⟨tidy.turns (tidy.sound.commit rfl _ _) (separator_not_mem_keyFor named.app named.target)
    (fun other ne => commits.others _ _ fun both => ne both.2) commits.entries
    fun a here => ?_, _, commits.is, binds⟩
  obtain rfl := Option.some.inj (commits.is.symm.trans here)
  refine ⟨⟨_, _, _, named.app, named.target, binds⟩, fun label value has => ?_⟩
  rw [commits.index, Index.mem_keys_relabel]
  exact .inl (Index.mem_entriesBeyond.2 ⟨label, value, has, by simp [labelsOf], rfl⟩)

/-- The labels are those that the autoscaler has already, so the index stays as it is. -/
theorem ends_attach_again (tidy : Tidy s) (named : Deployment.Named d.spec) {r : Release}
    {current : Autoscaler}
    (found : s.getByKey .autoscalers (keyFor d.spec.app d.spec.target) = some current)
    (own : current.label? Label.release = some r.name) :
    Ends (apply (autoscalerFor d r)) s fun _ s' => Attached d r s s' := by
  have asks := binds_autoscalerFor d r
  refine (ends_apply_stored tidy.sound (by rwa [asks.key])).mono ?_
  rintro - s' ⟨version, replaces⟩
  obtain ⟨release, was⟩ := tidy.binds named.app named.target found
  obtain rfl : release = r.name := Option.some.inj (was.label.symm.trans own)
  have same : (autoscalerFor d r).info.labels = current.info.labels :=
    asks.labels.trans was.labels.symm
  have index : s'.index = s.index := by
    rw [replaces.index]
    show s.index.relabel _ _ _ (autoscalerFor d r).info.labels = _
    rw [same, Index.relabel_self]
  have here := replaces.here
  rw [was.key] at here
  have binds : Binds d.spec.app d.spec.target r.name { respecified current (autoscalerFor d r)
      with info.specVersion := version } :=
    ⟨was.ns, was.name, asks.labels, asks.steers, asks.bounds⟩
  refine ⟨tidy.turns replaces.sound (separator_not_mem_keyFor named.app named.target)
    (fun other ne => replaces.there other (was.key.symm ▸ ne)) (fun _ _ => by rw [index])
    fun a there => ?_, _, here, binds⟩
  obtain rfl := Option.some.inj (here.symm.trans there)
  refine ⟨⟨_, _, _, named.app, named.target, binds⟩, fun label value has => ?_⟩
  rw [index]
  refine (tidy.fits _ current found).listed label value ?_
  unfold Object.label?
  rw [← same]
  exact has

/-- An autoscaler is stored for a release, where there is none or one of that release. -/
theorem ends_attach (tidy : Tidy s) (named : Deployment.Named d.spec) {r : Release}
    (own : ∀ a : Autoscaler,
      s.getByKey .autoscalers (keyFor d.spec.app d.spec.target) = some a →
        a.label? Label.release = some r.name) :
    Ends (apply (autoscalerFor d r)) s fun _ s' => Attached d r s s' := by
  cases found : s.getByKey .autoscalers (keyFor d.spec.app d.spec.target) with
  | none => exact ends_attach_free tidy named r found
  | some current => exact ends_attach_again tidy named found (own current found)

/-- **One call.**  Of the autoscalers, the one under the key of the descriptor becomes that of the
release that is to be steered, or goes. -/
theorem ends_reconcile (tidy : Tidy s) (named : Deployment.Named d.spec) (rs : List Release) :
    Ends (reconcile d rs) s fun _ s' => Tidy.Turns (keyFor d.spec.app d.spec.target) s s' ∧
      (boundRelease? d rs = none →
        s'.getByKey .autoscalers (keyFor d.spec.app d.spec.target) = none) ∧
      ∀ r, boundRelease? d rs = some r → ∃ a : Autoscaler,
        s'.getByKey .autoscalers (keyFor d.spec.app d.spec.target) = some a ∧
          Binds d.spec.app d.spec.target r.name a := by
  have listed : s.matching .autoscalers (Selector.ofTarget d.spec.app d.spec.target) =
      (s.getByKey .autoscalers (keyFor d.spec.app d.spec.target)).toList := by
    rw [tidy.matching_eq, tidy.attached?_eq named.app named.target]
  have own : ∀ a ∈ (s.getByKey .autoscalers (keyFor d.spec.app d.spec.target)).toList,
      a.key = keyFor d.spec.app d.spec.target :=
    fun a member => tidy.sound.keyed .autoscalers _ a (Option.mem_toList.1 member)
  unfold reconcile
  refine ends_read ?_
  rw [listed]
  cases bound : boundRelease? d rs with
  | none =>
      refine (ends_clear tidy named own).bind ?_
      rintro _ s' ⟨turns, cleared⟩
      refine ends_pure ⟨turns, fun _ => ?_, fun r other => by cases other⟩
      rw [cleared]
      split
      · rename_i none_
        exact Option.toList_eq_nil_iff.1 none_
      · rfl
  | some r =>
      refine (ends_clear tidy named fun a member => own a (List.mem_filter.1 member).1).bind ?_
      rintro _ s₁ ⟨turns, cleared⟩
      -- what is left under the key steers this very release, and has its labels already
      have kept : ∀ a : Autoscaler,
          s₁.getByKey .autoscalers (keyFor d.spec.app d.spec.target) = some a →
            a.label? Label.release = some r.name := by
        intro a found
        rw [cleared] at found
        split at found
        · rename_i none_
          simpa using List.filter_eq_nil_iff.1 none_ a (Option.mem_toList.2 found)
        · cases found
      refine (ends_attach turns.tidy named kept).bind ?_
      rintro _ s₂ ⟨turns', attached⟩
      refine ends_pure ⟨turns.trans turns', ?_, ?_⟩
      · rintro ⟨⟩
      · rintro _ ⟨⟩
        exact attached

/-- A release is to be steered if the descriptor needs an autoscaler and no release is in promotion,
and it is the first one that is active. -/
theorem boundRelease?_eq_some {r : Release} : boundRelease? d rs = some r ↔
    d.needsAutoscaler = true ∧ (∀ x ∈ rs, x.spec.role ≠ .target) ∧
      rs.find? (·.spec.role = .active) = some r := by
  unfold boundRelease?
  split
  · rename_i settled
    simp only [Bool.and_eq_true, Bool.not_eq_true', List.any_eq_false, decide_eq_true_eq] at settled
    exact ⟨fun first => ⟨settled.1, settled.2, first⟩, fun both => both.2.2⟩
  · rename_i unsettled
    simp only [Bool.and_eq_true, Bool.not_eq_true', List.any_eq_false, decide_eq_true_eq]
      at unsettled
    simp only [reduceCtorEq, false_iff]
    exact fun both => unsettled ⟨both.1, both.2.1⟩

/-! ## Calls and writes of statuses in turns -/

/-- A call of the coordinator with any descriptor and any releases, or a write of a status. -/
inductive Act where
  | call (d : Descriptor) (rs : List Release)
  | restate (r : Request) (only : r.OnlyStatus)

def Act.perform (s : Store) : Act → Store
  | .call d rs => (reconcile d rs).left s
  | .restate r _ => s.serve r

/-- A descriptor is for an application and a target with names. -/
def Act.Named : Act → Prop
  | .call d _ => Deployment.Named d.spec
  | .restate _ _ => True

/-- The store after some acts, one after the other. -/
def performed (s : Store) (acts : List Act) : Store := acts.foldl Act.perform s

theorem Tidy.perform (tidy : Tidy s) {act : Act} (named : act.Named) : Tidy (act.perform s) := by
  cases act with
  | call d rs =>
      obtain ⟨_, turns, -⟩ := exists_left_of_ends (ends_reconcile tidy named rs)
      exact turns.tidy
  | restate r only =>
      exact tidy.restate (restates_serve tidy.sound only) (tidy.sound.next (next_serve s r))

theorem Tidy.performed (tidy : Tidy s) {acts : List Act} (named : ∀ act ∈ acts, act.Named) :
    Tidy (performed s acts) := by
  induction acts generalizing s with
  | nil => exact tidy
  | cons act acts ih =>
      obtain ⟨here, there⟩ := List.forall_mem_cons.1 named
      exact ih (tidy.perform here) there

/-- **One autoscaler or none.**  In a store that had no autoscalers, after any calls of the
coordinator and writes of statuses in turns, the next call succeeds.  If the descriptor needs an
autoscaler, no release is in promotion and one is active, the only autoscaler for the application and
the target is then one that steers the first active release, within bounds that are in order; else
there is none.  For other applications and targets there are the same as before. -/
theorem one_autoscaler_for_active_release {s : Store} (sound : s.Sound)
    (bare : s.list .autoscalers = []) {acts : List Act} (named : ∀ act ∈ acts, act.Named)
    {d : Descriptor} (named' : Deployment.Named d.spec) (rs : List Release) :
    Ends (reconcile d rs) (performed s acts) fun _ s' =>
      (∀ r, d.needsAutoscaler = true → (∀ x ∈ rs, x.spec.role ≠ .target) →
        rs.find? (·.spec.role = .active) = some r →
        ∃ a, s'.scan .autoscalers (Selector.ofTarget d.spec.app d.spec.target) = [a] ∧
          a.info.ns = d.spec.target ∧ a.info.name = d.spec.app ++ "-scaler" ∧
          a.spec.release = r.name ∧ a.label? Label.release = some r.name ∧
          1 ≤ a.spec.minReplicas ∧ a.spec.minReplicas ≤ a.spec.maxReplicas) ∧
      (¬ (d.needsAutoscaler = true ∧ (∀ x ∈ rs, x.spec.role ≠ .target) ∧
          ∃ x ∈ rs, x.spec.role = .active) →
        s'.scan .autoscalers (Selector.ofTarget d.spec.app d.spec.target) = []) ∧
      ∀ app target, ¬ (app = d.spec.app ∧ target = d.spec.target) →
        s'.scan .autoscalers (Selector.ofTarget app target) =
          (performed s acts).scan .autoscalers (Selector.ofTarget app target) := by
  have tidy := (tidy_of_bare sound bare).performed named
  refine (ends_reconcile tidy named' rs).mono ?_
  rintro _ s' ⟨turns, detached, attached⟩
  have own : s'.scan .autoscalers (Selector.ofTarget d.spec.app d.spec.target) =
      (s'.getByKey .autoscalers (keyFor d.spec.app d.spec.target)).toList := by
    rw [turns.tidy.scan_eq, turns.tidy.attached?_eq named'.app named'.target]
  refine ⟨fun r needs settled first => ?_, fun unsettled => ?_, fun app target other => ?_⟩
  · obtain ⟨a, found, binds⟩ := attached r (boundRelease?_eq_some.2 ⟨needs, settled, first⟩)
    exact ⟨a, by rw [own, found]; rfl, binds.ns, binds.name, binds.steers, binds.label, binds.bounds⟩
  · rw [own, detached]
    · rfl
    · refine Option.eq_none_iff_forall_ne_some.2 fun r bound => unsettled ?_
      obtain ⟨needs, settled, first⟩ := boundRelease?_eq_some.1 bound
      have active := List.find?_some first
      exact ⟨needs, settled, r, List.mem_of_find?_eq_some first, of_decide_eq_true active⟩
  · rw [turns.tidy.scan_eq, tidy.scan_eq, turns.attached? tidy named'.app named'.target other]

namespace Sample

open Cutover.Sample

/-- A descriptor of an application in production that needs an autoscaler. -/
def scalable (app : String) : Descriptor :=
  { descriptor 2 with
    spec.app := app
    spec.scale := ⟨2, 6, 50⟩
    spec.runtime.resources.requests.cpu := some "100m" }

/-- The first release gets an autoscaler, which reports, and loses it during a promotion.  The
promotion is given up.  Another application has an autoscaler as well. -/
def acts : List Act :=
  [.call (scalable "web") [release "web-1" 10 .active 100 3],
    .restate (.modifyStatus .autoscalers "prod" "web-scaler" fun a =>
      { a.status with lastScaleTime := some 30 }) trivial,
    .call (scalable "shop") [release "shop-1" 10 .active 100 3],
    .call (scalable "web") [release "web-1" 10 .active 50 3, release "web-2" 20 .target 50 3],
    .call (scalable "web") [release "web-1" 10 .active 100 3, release "web-2" 20 .bad 0 0]]

def steered (s : Store) (app : String) : List String :=
  (s.scan .autoscalers (Selector.ofTarget app "prod")).map (·.spec.release)

/-- The third release takes over. -/
theorem autoscaler_rebound : Ends (reconcile (scalable "web") [release "web-3" 30 .active 100 3])
    (performed (Store.empty 9) acts) fun _ s' =>
      steered (performed (Store.empty 9) acts) "web" = ["web-1"] ∧ steered s' "web" = ["web-3"] ∧
      steered (performed (Store.empty 9) acts) "shop" = ["shop-1"] ∧
      steered s' "shop" = ["shop-1"] := by
  have named (app : String) (free : IsName app) : Deployment.Named (scalable app).spec :=
    ⟨free, show IsName "prod" by decide⟩
  have web := named "web" (by decide)
  have all : ∀ act ∈ acts, act.Named := by
    unfold acts
    simp only [List.forall_mem_cons]
    exact ⟨web, trivial, named "shop" (by decide), web, web, fun _ none_ => by cases none_⟩
  have before : steered (performed (Store.empty 9) acts) "web" = ["web-1"] ∧
      steered (performed (Store.empty 9) acts) "shop" = ["shop-1"] := by decide +kernel
  refine (one_autoscaler_for_active_release (sound_empty 9) rfl all web
    [release "web-3" 30 .active 100 3]).mono ?_
  rintro _ s' ⟨bound, -, others⟩
  obtain ⟨a, only, -, -, steers, -⟩ := bound _ (by decide) (by decide) rfl
  have shop : steered s' "shop" = ["shop-1"] := by
    unfold steered at before ⊢
    rw [others "shop" "prod" (by decide), before.2]
  refine ⟨before.1, ?_, before.2, shop⟩
  have own : s'.scan .autoscalers (Selector.ofTarget "web" "prod") = [a] := only
  unfold steered
  rw [own, List.map_singleton, steers]
  rfl

end Sample

end Binding
end Cutover
