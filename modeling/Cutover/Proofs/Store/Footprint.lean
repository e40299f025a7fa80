/-
# Cutover.Proofs.Store.Footprint -- programs that keep to their part of a store

A `Footprint` is a part of a store: keys of each kind, texts of the index, and kinds that are read as a
whole and written by nobody.  Two stores are `Alike` in it if that part of both is the same, and a
store has changed within it (`Confined`) if all the rest is as it was.

A program keeps to a footprint if from stores alike in it, it comes to the same answer and to stores
that are alike again, and has changed each within it (`InStep`).  This is proved along the
program: every write of a key of the footprint keeps to it, and so do sequences of programs.  That
queries find nothing outside the keys of the footprint is due to a law on stored
objects (`Lawful`), which every step has to keep.

Programs with disjoint footprints commute (`commute_of_disjoint`).
-/
import Cutover.Proofs.Store.Law
import Cutover.Proofs.Store.Mirror

namespace Cutover

set_option autoImplicit false

/-! ## Footprints -/

/-- A part of a store: keys, texts of the index, and kinds that are read as a whole. -/
structure Footprint where
  cell : Kind → String → Prop
  text : String → Prop
  shared : Kind → Prop
  /-- Kinds that are read as a whole are not written. -/
  unshared : ∀ k key, cell k key → ¬ shared k

namespace Footprint

open Store

variable {k : Kind} {s s' s'' u u' u'' : Store} {law : ObjectLaw} {ρ σ : Footprint}

/-- The part of two stores is the same. -/
structure Alike (ρ : Footprint) (s u : Store) : Prop where
  found : ∀ k key, ρ.cell k key → u.getByKey k key = s.getByKey k key
  filed : ∀ text, ρ.text text → (text ∈ u.index.keys ↔ text ∈ s.index.keys)
  whole : ∀ k, ρ.shared k → Agrees k s u
  clock : u.clock = s.clock

/-- Nothing but the part of a store has changed. -/
structure Confined (ρ : Footprint) (s s' : Store) : Prop where
  found : ∀ k key, ¬ ρ.cell k key → s'.getByKey k key = s.getByKey k key
  filed : ∀ text, ¬ ρ.text text → (text ∈ s'.index.keys ↔ text ∈ s.index.keys)
  whole : ∀ k, ρ.shared k → Agrees k s s'
  clock : s'.clock = s.clock

theorem Alike.refl (ρ : Footprint) (s : Store) : ρ.Alike s s :=
  ⟨fun _ _ _ => rfl, fun _ _ => Iff.rfl, fun k _ => Agrees.refl k s, rfl⟩

theorem Confined.refl (ρ : Footprint) (s : Store) : ρ.Confined s s :=
  ⟨fun _ _ _ => rfl, fun _ _ => Iff.rfl, fun k _ => Agrees.refl k s, rfl⟩

theorem Confined.trans (first : ρ.Confined s s') (second : ρ.Confined s' s'') :
    ρ.Confined s s'' where
  found k key out := (second.found k key out).trans (first.found k key out)
  filed text out := (second.filed text out).trans (first.filed text out)
  whole k inside := (first.whole k inside).trans (second.whole k inside)
  clock := second.clock.trans first.clock

/-- Lawful stores of which the part is the same. -/
structure Twins (ρ : Footprint) (law : ObjectLaw) (s u : Store) : Prop where
  left : s.Lawful law
  right : u.Lawful law
  alike : ρ.Alike s u

/-- Two stores have changed within the part, and in the same way. -/
structure Together (ρ : Footprint) (law : ObjectLaw) (s u s' u' : Store) : Prop where
  twins : ρ.Twins law s' u'
  left : ρ.Confined s s'
  right : ρ.Confined u u'

theorem Together.refl (twins : ρ.Twins law s u) : ρ.Together law s u s u :=
  ⟨twins, .refl ρ s, .refl ρ u⟩

theorem Together.trans (first : ρ.Together law s u s' u')
    (second : ρ.Together law s' u' s'' u'') : ρ.Together law s u s'' u'' :=
  ⟨second.twins, first.left.trans second.left, first.right.trans second.right⟩

/-! ### Queries -/

/-- A query by application and target finds the same in both stores if the law puts what it may
find into the part. -/
theorem Twins.matching (twins : ρ.Twins law s u) {app target : String}
    (finds : ∀ key labels spec, law k key labels spec →
      (Selector.ofTarget app target).accepts labels = true →
      ρ.cell k key ∧ ρ.text (Index.entry k Label.app app key)) :
    u.matching k (Selector.ofTarget app target) = s.matching k (Selector.ofTarget app target) := by
  have inside {t : Store} (lawful : t.Lawful law) {o : Object k}
      (found : t.getByKey k o.key = some o) (app_eq : o.label? Label.app = some app)
      (target_eq : o.label? Label.target = some target) :=
    finds o.key o.info.labels o.spec (lawful.objects k _ o found)
      (Selector.accepts_ofTarget.2 ⟨app_eq, target_eq⟩)
  refine eq_of_ordered (matching_ordered twins.right.sound k _)
    (matching_ordered twins.left.sound k _) fun o => ?_
  rw [mem_ofTarget twins.right.sound, mem_ofTarget twins.left.sound]
  constructor
  · rintro ⟨found, filed, app_eq, target_eq⟩
    obtain ⟨cell, text⟩ := inside twins.right found app_eq target_eq
    exact ⟨(twins.alike.found k _ cell).symm.trans found, (twins.alike.filed _ text).1 filed,
      app_eq, target_eq⟩
  · rintro ⟨found, filed, app_eq, target_eq⟩
    obtain ⟨cell, text⟩ := inside twins.left found app_eq target_eq
    exact ⟨(twins.alike.found k _ cell).trans found, (twins.alike.filed _ text).2 filed,
      app_eq, target_eq⟩

/-! ### Writes -/

/-- The entries of lawful labels of a key are texts of the part. -/
def Files (ρ : Footprint) (law : ObjectLaw) (k : Kind) (key : String) : Prop :=
  ∀ labels spec, law k key labels spec → ∀ label value, labels.get? label = some value →
    ρ.text (Index.entry k label value key)

theorem Files.entriesBeyond {key text : String} {labels other : Dict String} {spec : k.Spec}
    (files : ρ.Files law k key) (fits : law k key labels spec)
    (inside : text ∈ Index.entriesBeyond k key labels other) : ρ.text text := by
  obtain ⟨label, value, has, -, rfl⟩ := Index.mem_entriesBeyond.1 inside
  exact files labels spec fits label value has

/-- A change of labels leaves the texts outside a part that has all entries it drops or adds. -/
theorem confined_relabel {key : String} {before after : Dict String}
    (texts : ∀ text, text ∈ Index.entriesBeyond k key before after ∨
      text ∈ Index.entriesBeyond k key after before → ρ.text text)
    (index : Index) {text : String} (out : ¬ ρ.text text) :
    text ∈ (index.relabel k key before after).keys ↔ text ∈ index.keys := by
  rw [Index.mem_keys_relabel]
  have stays : text ∉ Index.entriesBeyond k key before after := fun went =>
    out (texts text (.inl went))
  have absent : text ∉ Index.entriesBeyond k key after before := fun came =>
    out (texts text (.inr came))
  simp [stays, absent]

theorem Twins.whole_of_confined (twins : ρ.Twins law s u) (left : ρ.Confined s s')
    (right : ρ.Confined u u') {j : Kind} (shared : ρ.shared j) : Agrees j s' u' := by
  have first := left.whole j shared
  have second := right.whole j shared
  have both := twins.alike.whole j shared
  exact ⟨by rw [second.table, both.table, first.table],
    fun label value => by rw [second.found, both.found, first.found]⟩

/-- The same object is put in place of the same labels. -/
theorem together_commit (twins : ρ.Twins law s u) {o : Object k} {before : Dict String}
    {change : Change} (cell : ρ.cell k o.key)
    (texts : ∀ text, text ∈ Index.entriesBeyond k o.key before o.info.labels ∨
      text ∈ Index.entriesBeyond k o.key o.info.labels before → ρ.text text)
    (lawful : (s.commit o before change).Lawful law)
    (lawful' : (u.commit o before change).Lawful law) :
    ρ.Together law s u (s.commit o before change) (u.commit o before change) := by
  have unshared {j : Kind} (shared : ρ.shared j) : j ≠ k := by
    rintro rfl
    exact ρ.unshared j _ cell shared
  have confined (t : Store) : ρ.Confined t (t.commit o before change) := by
    refine ⟨?_, fun text out => confined_relabel texts t.index out,
      fun j shared => agrees_commit (unshared shared) t o before change, rfl⟩
    intro j key out
    by_cases kind : j = k
    · subst kind
      refine getByKey_commit_of_ne t o before change ?_
      rintro rfl
      exact out cell
    · exact (agrees_commit kind t o before change).getByKey key
  refine ⟨⟨lawful, lawful', ⟨?_, ?_, ?_, twins.alike.clock⟩⟩, confined s, confined u⟩
  · intro j key inside
    by_cases kind : j = k
    · subst kind
      by_cases same : key = o.key
      · subst same
        rw [getByKey_commit_self, getByKey_commit_self]
      · rw [getByKey_commit_of_ne _ _ _ _ same, getByKey_commit_of_ne _ _ _ _ same]
        exact twins.alike.found j key inside
    · rw [(agrees_commit kind u o before change).getByKey,
        (agrees_commit kind s o before change).getByKey]
      exact twins.alike.found j key inside
  · intro text inside
    show text ∈ (u.index.relabel _ _ _ _).keys ↔ text ∈ (s.index.relabel _ _ _ _).keys
    rw [Index.mem_keys_relabel, Index.mem_keys_relabel, twins.alike.filed text inside]
  · exact fun j shared => twins.whole_of_confined (confined s) (confined u) shared

/-- The object of a key goes. -/
theorem together_delete (twins : ρ.Twins law s u) {ns name : String}
    (cell : ρ.cell k (objectKey ns name)) (files : ρ.Files law k (objectKey ns name)) :
    (u.delete k ns name).1 = (s.delete k ns name).1 ∧
      ρ.Together law s u (s.delete k ns name).2 (u.delete k ns name).2 := by
  have same := twins.alike.found k _ cell
  have unshared {j : Kind} (shared : ρ.shared j) : j ≠ k := by
    rintro rfl
    exact ρ.unshared j _ cell shared
  cases found : s.getByKey k (objectKey ns name) with
  | none =>
      rw [found] at same
      unfold delete
      simp only [found, same, true_and]
      exact .refl twins
  | some current =>
      rw [found] at same
      have texts : ∀ text, text ∈ Index.entriesBeyond k (objectKey ns name) current.info.labels ∅ ∨
          text ∈ Index.entriesBeyond k (objectKey ns name) ∅ current.info.labels → ρ.text text := by
        rintro text (went | came)
        · exact files.entriesBeyond (twins.left.objects k _ current found) went
        · obtain ⟨label, value, absent, -⟩ := Index.mem_entriesBeyond.1 came
          cases absent
      have confined {t : Store} (there : t.getByKey k (objectKey ns name) = some current) :
          ρ.Confined t (t.delete k ns name).2 := by
        refine ⟨?_, ?_, fun j shared => agrees_delete (unshared shared) t ns name, ?_⟩
        · intro j key out
          by_cases kind : j = k
          · subst kind
            rw [getByKey_delete, if_neg]
            rintro rfl
            exact out cell
          · exact (agrees_delete kind t ns name).getByKey key
        · intro text out
          rw [index_delete_of_some there]
          exact confined_relabel texts t.index out
        · unfold delete
          simp only [there]
      have answer : (u.delete k ns name).1 = (s.delete k ns name).1 := by
        unfold delete
        simp only [found, same]
      refine ⟨answer, ⟨twins.left.delete k ns name, twins.right.delete k ns name, ⟨?_, ?_, ?_, ?_⟩⟩,
        confined found, confined same⟩
      · intro j key inside
        by_cases kind : j = k
        · subst kind
          rw [getByKey_delete, getByKey_delete, twins.alike.found j key inside]
        · rw [(agrees_delete kind u ns name).getByKey, (agrees_delete kind s ns name).getByKey]
          exact twins.alike.found j key inside
      · intro text inside
        rw [index_delete_of_some found, index_delete_of_some same, Index.mem_keys_relabel,
          Index.mem_keys_relabel, twins.alike.filed text inside]
      · exact fun j shared => twins.whole_of_confined (confined found) (confined same) shared
      · rw [(confined same).clock, (confined found).clock]
        exact twins.alike.clock

end Footprint

/-! ## Programs in step -/

open Footprint Store Pass

/-- Two runs of a program came to the same answer, and have changed their stores within the part
and in the same way. -/
inductive InStep {ε α : Type} (ρ : Footprint) (law : ObjectLaw) (s u : Store) (post : α → Prop) :
    EStateM.Result ε Store α → EStateM.Result ε Store α → Prop
  | ok {a : α} {s' u' : Store} (holds : post a) (together : ρ.Together law s u s' u') :
      InStep ρ law s u post (.ok a s') (.ok a u')
  | error {e : ε} {s' u' : Store} (together : ρ.Together law s u s' u') :
      InStep ρ law s u post (.error e s') (.error e u')

namespace InStep

variable {ε ε' α β : Type} {ρ : Footprint} {law : ObjectLaw} {s u : Store} {post : α → Prop}

theorem mono {x y : EStateM.Result ε Store α} {post' : α → Prop} (step : InStep ρ law s u post x y)
    (weaker : ∀ a, post a → post' a) : InStep ρ law s u post' x y := by
  cases step with
  | ok holds together => exact .ok (weaker _ holds) together
  | error together => exact .error together

theorem after {s' u' : Store} {x y : EStateM.Result ε Store α}
    (first : ρ.Together law s u s' u') (step : InStep ρ law s' u' post x y) :
    InStep ρ law s u post x y := by
  cases step with
  | ok holds together => exact .ok holds (first.trans together)
  | error together => exact .error (first.trans together)

theorem pure (twins : ρ.Twins law s u) {a : α} (holds : post a) :
    InStep ρ law s u post ((Pure.pure a : Pass ε α) s) ((Pure.pure a : Pass ε α) u) :=
  .ok holds (.refl twins)

theorem throw (twins : ρ.Twins law s u) (e : ε) :
    InStep ρ law s u post ((MonadExcept.throw e : Pass ε α) s)
      ((MonadExcept.throw e : Pass ε α) u) :=
  .error (.refl twins)

theorem bind {part : Pass ε β} {next : β → Pass ε α} {mid : β → Prop}
    (first : InStep ρ law s u mid (part s) (part u))
    (rest : ∀ b s' u', mid b → ρ.Together law s u s' u' →
      InStep ρ law s' u' post (next b s') (next b u')) :
    InStep ρ law s u post ((part >>= next) s) ((part >>= next) u) := by
  show InStep ρ law s u post (EStateM.bind part next s) (EStateM.bind part next u)
  unfold EStateM.bind
  generalize part s = x at first
  generalize part u = y at first
  cases first with
  | ok holds together => exact (rest _ _ _ holds together).after together
  | error together => exact .error together

/-- A program that reads the store goes on alike if it goes on with what is the same. -/
theorem read {next : Store → Pass ε α} (same : next u = next s)
    (rest : InStep ρ law s u post (next s s) (next s u)) :
    InStep ρ law s u post ((getThe Store >>= next) s) ((getThe Store >>= next) u) := by
  show InStep ρ law s u post (next s s) (next u u)
  rw [same]
  exact rest

theorem map {part : Pass ε β} {f : β → α} {mid : β → Prop}
    (step : InStep ρ law s u mid (part s) (part u)) (holds : ∀ b, mid b → post (f b)) :
    InStep ρ law s u post ((f <$> part : Pass ε α) s) ((f <$> part : Pass ε α) u) := by
  show InStep ρ law s u post (EStateM.map f part s) (EStateM.map f part u)
  unfold EStateM.map
  generalize part s = x at step
  generalize part u = y at step
  cases step with
  | ok here together => exact .ok (holds _ here) together
  | error together => exact .error together

theorem discard {part : Pass ε β} {mid : β → Prop}
    (step : InStep ρ law s u mid (part s) (part u)) :
    InStep ρ law s u (fun _ => True) (Functor.discard part s) (Functor.discard part u) :=
  step.map fun _ _ => trivial

theorem within {wrap : ε → ε'} {part : Pass ε α}
    (step : InStep ρ law s u post (part s) (part u)) :
    InStep ρ law s u post (part.within wrap s) (part.within wrap u) := by
  unfold Pass.within
  generalize part s = x at step
  generalize part u = y at step
  cases step with
  | ok holds together => exact .ok holds together
  | error together => exact .error together

theorem mapM {part : β → Pass ε α} {xs : List β}
    (each : ∀ x ∈ xs, ∀ s u, ρ.Twins law s u → InStep ρ law s u post (part x s) (part x u))
    (twins : ρ.Twins law s u) :
    InStep ρ law s u (fun ys => ∀ y ∈ ys, post y) (xs.mapM part s) (xs.mapM part u) := by
  induction xs generalizing s u with
  | nil =>
      rw [List.mapM_nil]
      exact pure twins fun y inside => absurd inside List.not_mem_nil
  | cons x xs ih =>
      obtain ⟨here, there⟩ := List.forall_mem_cons.1 each
      rw [List.mapM_cons]
      refine (here s u twins).bind fun y s₁ u₁ holds first => ?_
      refine (ih there first.twins).bind fun ys s₂ u₂ all second => ?_
      exact pure second.twins (List.forall_mem_cons.2 ⟨holds, all⟩)

theorem forM {part : β → Pass ε Unit} {xs : List β} {post : Unit → Prop}
    (each : ∀ x ∈ xs, ∀ s u, ρ.Twins law s u → InStep ρ law s u post (part x s) (part x u))
    (twins : ρ.Twins law s u) :
    InStep ρ law s u (fun _ => True) (xs.forM part s) (xs.forM part u) := by
  induction xs generalizing s u with
  | nil => exact pure twins trivial
  | cons x xs ih =>
      obtain ⟨here, there⟩ := List.forall_mem_cons.1 each
      exact (here s u twins).bind fun _ s₁ u₁ _ first => ih there first.twins

/-! ### Writes -/

theorem write_ok {op : Store → Except StoreError (α × Store)} {a : α} {s' u' : Store}
    (left : op s = .ok (a, s')) (right : op u = .ok (a, u')) (holds : post a)
    (together : ρ.Together law s u s' u') :
    InStep ρ law s u post (Pass.write op s) (Pass.write op u) := by
  unfold Pass.write
  rw [left, right]
  exact .ok holds together

theorem write_error {op : Store → Except StoreError (α × Store)} {e : StoreError}
    (left : op s = .error e) (right : op u = .error e) (twins : ρ.Twins law s u) :
    InStep ρ law s u post (Pass.write op s) (Pass.write op u) := by
  unfold Pass.write
  rw [left, right]
  exact .error (.refl twins)

variable {k : Kind}

/-- What is asked of an object that a program creates, or whose spec and labels it stores. -/
structure Fits (ρ : Footprint) (law : ObjectLaw) (o : Object k) : Prop where
  cell : ρ.cell k o.key
  lawful : law k o.key o.info.labels o.spec
  files : ρ.Files law k o.key

/-- An object has come back with its key and its labels. -/
def Returns (o made : Object k) : Prop := made.key = o.key ∧ made.info.labels = o.info.labels

theorem create (twins : ρ.Twins law s u) {o : Object k} (fits : Fits ρ law o) :
    InStep ρ law s u (Returns o) (Pass.write (·.create o) s) (Pass.write (·.create o) u) := by
  have same := twins.alike.found k o.key fits.cell
  cases found : s.getByKey k o.key with
  | some current =>
      rw [found] at same
      exact write_error (create_taken found) (create_taken same) twins
  | none =>
      rw [found] at same
      have accepted : u.accepted o = s.accepted o := by
        unfold accepted
        rw [twins.alike.clock]
      have right := create_eq same
      rw [accepted] at right
      refine write_ok (create_eq found) right ⟨rfl, rfl⟩ (together_commit twins fits.cell ?_
        (twins.left.created fits.lawful s) (twins.right.created fits.lawful s))
      rintro text (went | came)
      · obtain ⟨label, value, absent, -⟩ := Index.mem_entriesBeyond.1 went
        cases absent
      · exact fits.files.entriesBeyond fits.lawful came

theorem updateSpec (twins : ρ.Twins law s u) {o : Object k} (fits : Fits ρ law o) :
    InStep ρ law s u (Returns o) (Pass.write (·.updateSpec o) s)
      (Pass.write (·.updateSpec o) u) := by
  have same := twins.alike.found k o.key fits.cell
  cases found : s.getByKey k o.key with
  | none =>
      rw [found] at same
      have missing {t : Store} (free : t.getByKey k o.key = none) :
          t.updateSpec o = .error (.notFound (k.name ++ " " ++ o.key)) := by
        unfold Store.updateSpec
        simp only [free]
      exact write_error (missing found) (missing same) twins
  | some current =>
      rw [found] at same
      by_cases seen : current.info.specVersion = o.info.specVersion
      · have key : current.key = o.key := twins.left.sound.keyed k _ current found
        refine write_ok (updateSpec_eq found seen) (updateSpec_eq same seen) ⟨key, rfl⟩
          (together_commit twins (key ▸ fits.cell) ?_ (twins.left.respecified found fits.lawful)
            (twins.right.respecified same fits.lawful))
        show ∀ text, text ∈ Index.entriesBeyond k current.key current.info.labels o.info.labels ∨
          text ∈ Index.entriesBeyond k current.key o.info.labels current.info.labels → ρ.text text
        rw [key]
        rintro text (went | came)
        · exact fits.files.entriesBeyond (twins.left.objects k _ current found) went
        · exact fits.files.entriesBeyond fits.lawful came
      · exact write_error (updateSpec_stale found seen) (updateSpec_stale same seen) twins

theorem updateStatus (twins : ρ.Twins law s u) {o : Object k} (cell : ρ.cell k o.key) :
    InStep ρ law s u (fun _ => True) (Pass.write (·.updateStatus o) s)
      (Pass.write (·.updateStatus o) u) := by
  have same := twins.alike.found k o.key cell
  cases found : s.getByKey k o.key with
  | none =>
      rw [found] at same
      have missing {t : Store} (free : t.getByKey k o.key = none) :
          t.updateStatus o = .error (.notFound (k.name ++ " " ++ o.key)) := by
        unfold Store.updateStatus
        simp only [free]
      exact write_error (missing found) (missing same) twins
  | some current =>
      rw [found] at same
      by_cases seen : current.info.statusVersion = o.info.statusVersion
      · have key : current.key = o.key := twins.left.sound.keyed k _ current found
        refine write_ok (updateStatus_eq found seen) (updateStatus_eq same seen) trivial
          (together_commit twins (key ▸ cell) ?_ (twins.left.restated found o.status)
            (twins.right.restated same o.status))
        -- a status has no labels, so no text comes or goes
        have none_ : ∀ text, text ∉ Index.entriesBeyond k current.key current.info.labels
            current.info.labels := by
          intro text inside
          obtain ⟨label, value, has, differs, -⟩ := Index.mem_entriesBeyond.1 inside
          exact differs has
        rintro text (went | came)
        · exact absurd went (none_ text)
        · exact absurd came (none_ text)
      · exact write_error (updateStatus_stale found seen) (updateStatus_stale same seen) twins

theorem delete (twins : ρ.Twins law s u) {ns name : String} (cell : ρ.cell k (objectKey ns name))
    (files : ρ.Files law k (objectKey ns name)) (f : Bool → α) (holds : ∀ b, post (f b)) :
    InStep ρ law s u post
      (Pass.write (fun s => .ok (f (s.delete k ns name).1, (s.delete k ns name).2)) s)
      (Pass.write (fun s => .ok (f (s.delete k ns name).1, (s.delete k ns name).2)) u) := by
  obtain ⟨answer, together⟩ := together_delete twins cell files
  refine write_ok rfl ?_ (holds _) together
  rw [answer]

/-! ### Edits -/

/-- What is asked of an intent: to be about a key of the part, and to write a lawful object. -/
def Permitted (ρ : Footprint) (law : ObjectLaw) : Intent k → Prop
  | .nothing _ => True
  | .create o => Fits ρ law o
  | .replaceSpec o => Fits ρ law o
  | .replaceStatus o => ρ.cell k o.key

theorem perform (twins : ρ.Twins law s u) {intent : Intent k} (permitted : Permitted ρ law intent) :
    InStep ρ law s u (fun _ => True) (Pass.write (intent.perform ·) s)
      (Pass.write (intent.perform ·) u) := by
  cases intent with
  | nothing seen => exact write_ok rfl rfl trivial (.refl twins)
  | create o =>
      rw [write_perform_create]
      exact (create twins permitted).within.map fun _ _ => trivial
  | replaceSpec o =>
      rw [write_perform_replaceSpec]
      exact (updateSpec twins permitted).map fun _ _ => trivial
  | replaceStatus o =>
      rw [write_perform_replaceStatus]
      exact (updateStatus twins permitted).map fun _ _ => trivial

theorem edit (twins : ρ.Twins law s u) {intend : Store → Intent k} (same : intend u = intend s)
    (permitted : Permitted ρ law (intend s)) :
    InStep ρ law s u (fun _ => True) (Store.edit intend s) (Store.edit intend u) := by
  rw [edit_eq_attempt, edit_eq_attempt]
  refine read (by rw [same]) ?_
  exact (perform twins permitted).bind fun _ _ _ _ done => pure done.twins trivial

theorem apply (twins : ρ.Twins law s u) {desired : Object k} (fits : Fits ρ law desired) :
    InStep ρ law s u (fun _ => True) (Store.apply desired s) (Store.apply desired u) := by
  have found := twins.alike.found k desired.key fits.cell
  have same : u.intendApply desired = s.intendApply desired := by
    unfold intendApply
    rw [found]
  refine (edit twins same ?_).map fun _ _ => trivial
  unfold intendApply
  cases there : s.getByKey k desired.key with
  | none => exact fits
  | some current =>
      have key := twins.left.sound.keyed k _ current there
      simp only
      split
      · trivial
      · exact ⟨key ▸ fits.cell, key ▸ fits.lawful, key ▸ fits.files⟩

theorem modifyStatus (twins : ρ.Twins law s u) {ns name : String}
    (cell : ρ.cell k (objectKey ns name)) (f : Object k → k.Status) :
    InStep ρ law s u (fun _ => True) (Store.modifyStatus k ns name f s)
      (Store.modifyStatus k ns name f u) := by
  have found : u.get k ns name = s.get k ns name := twins.alike.found k _ cell
  have same : u.intendStatus ns name f = s.intendStatus ns name f := by
    unfold intendStatus
    rw [found]
  refine (edit twins same ?_).map fun _ _ => trivial
  unfold intendStatus
  cases there : s.get k ns name with
  | none => trivial
  | some current =>
      simp only
      split
      · trivial
      · have key := twins.left.sound.keyed k _ current there
        show ρ.cell k current.key
        rwa [key]

end InStep

/-! ## Programs that commute -/

/-- What a program answers. -/
def Pass.answer {ε α : Type} (part : Pass ε α) (s : Store) : Except ε α :=
  match part s with
  | .ok a _ => .ok a
  | .error e _ => .error e

section Commute

variable {ε ε' α β : Type} {ρ σ : Footprint} {law : ObjectLaw} {s u : Store}

theorem InStep.answer {part : Pass ε α} {post : α → Prop}
    (step : InStep ρ law s u post (part s) (part u)) : part.answer u = part.answer s := by
  unfold Pass.answer
  generalize part s = x at step
  generalize part u = y at step
  cases step <;> rfl

theorem InStep.left {part : Pass ε α} {post : α → Prop}
    (step : InStep ρ law s u post (part s) (part u)) :
    ρ.Together law s u (part.left s) (part.left u) := by
  unfold Pass.left
  generalize part s = x at step
  generalize part u = y at step
  cases step with
  | ok holds together => exact together
  | error together => exact together

/-- No key and no text of the index is in both parts, and both read the same kinds as a whole. -/
structure Footprint.Disjoint (ρ σ : Footprint) : Prop where
  cells : ∀ k key, ρ.cell k key → ¬ σ.cell k key
  texts : ∀ text, ρ.text text → ¬ σ.text text
  shared : ∀ k, ρ.shared k ↔ σ.shared k

theorem Footprint.Disjoint.symm (disjoint : ρ.Disjoint σ) : σ.Disjoint ρ where
  cells k key inside other := disjoint.cells k key other inside
  texts text inside other := disjoint.texts text other inside
  shared k := (disjoint.shared k).symm

/-- What changes within one part is alike in the other. -/
theorem Footprint.Confined.alike {s' : Store} (confined : σ.Confined s s')
    (disjoint : ρ.Disjoint σ) : ρ.Alike s s' where
  found k key inside := confined.found k key (disjoint.cells k key inside)
  filed text inside := confined.filed text (disjoint.texts text inside)
  whole k shared := confined.whole k ((disjoint.shared k).1 shared)
  clock := confined.clock

/-- Two programs answer the same in either order, and leave the same objects and index. -/
structure Commute (p : Pass ε α) (q : Pass ε' β) (s : Store) : Prop where
  first : p.answer (q.left s) = p.answer s
  second : q.answer (p.left s) = q.answer s
  tables : (p.left (q.left s)).tables = (q.left (p.left s)).tables
  index : (p.left (q.left s)).index = (q.left (p.left s)).index
  clock : (p.left (q.left s)).clock = (q.left (p.left s)).clock

/-- **Programs with disjoint footprints commute.** -/
theorem commute_of_disjoint {p : Pass ε α} {q : Pass ε' β} {post : α → Prop} {post' : β → Prop}
    (disjoint : ρ.Disjoint σ) (lawful : s.Lawful law)
    (keeps : ∀ u, ρ.Twins law s u → InStep ρ law s u post (p s) (p u))
    (keeps' : ∀ u, σ.Twins law s u → InStep σ law s u post' (q s) (q u)) : Commute p q s := by
  have alone := (keeps s ⟨lawful, lawful, .refl ρ s⟩).left
  have alone' := (keeps' s ⟨lawful, lawful, .refl σ s⟩).left
  -- each program finds its part as it was when the other has run before it
  have later := keeps (q.left s)
    ⟨lawful, alone'.twins.left, alone'.left.alike disjoint⟩
  have later' := keeps' (p.left s)
    ⟨lawful, alone.twins.left, alone.left.alike disjoint.symm⟩
  have both := later.left
  have both' := later'.left
  refine ⟨later.answer, later'.answer, ?_, ?_, ?_⟩
  · refine Tables.ext_get fun k => Dict.ext_get? fun key => ?_
    show (p.left (q.left s)).getByKey k key = (q.left (p.left s)).getByKey k key
    by_cases inside : ρ.cell k key
    · rw [both.twins.alike.found k key inside, both'.right.found k key (disjoint.cells k key inside)]
    · rw [both.right.found k key inside]
      by_cases inside' : σ.cell k key
      · rw [both'.twins.alike.found k key inside']
      · rw [alone'.left.found k key inside', both'.right.found k key inside',
          alone.left.found k key inside]
  · refine Dict.ext_get? fun text => ?_
    have same : text ∈ (p.left (q.left s)).index.keys ↔ text ∈ (q.left (p.left s)).index.keys := by
      by_cases inside : ρ.text text
      · rw [both.twins.alike.filed text inside,
          both'.right.filed text (disjoint.texts text inside)]
      · rw [both.right.filed text inside]
        by_cases inside' : σ.text text
        · rw [both'.twins.alike.filed text inside']
        · rw [alone'.left.filed text inside', both'.right.filed text inside',
            alone.left.filed text inside]
    rw [Index.mem_keys, Index.mem_keys] at same
    exact Option.ext fun _ => same
  · rw [both.right.clock, alone'.left.clock, both'.right.clock, alone.left.clock]

end Commute
end Cutover
