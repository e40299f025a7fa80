/-
# Cutover.Proofs.Store.Law -- laws on what is stored

An `ObjectLaw` asks something of the key, the labels and the spec of every stored object.  A sound
store is `Lawful` if all its objects keep the law.  A write keeps it if what it creates or respecifies
is as the law asks; writes of a status and deletions always do.

A program `Upholds` a law if it leaves a lawful store whatever comes of it.
-/
import Cutover.Proofs.Store.Request

namespace Cutover

set_option autoImplicit false

/-! ## Objects by a law -/

/-- What is asked of the key, the labels and the spec of stored objects of each kind. -/
abbrev ObjectLaw := (k : Kind) → String → Dict String → k.Spec → Prop

namespace Store

variable {k : Kind} {s s' u u' : Store} {law : ObjectLaw}

/-- The store is sound, and its objects keep a law. -/
structure Lawful (law : ObjectLaw) (s : Store) : Prop where
  sound : s.Sound
  objects : ∀ (k : Kind) (key : String) (o : Object k), s.getByKey k key = some o →
    law k key o.info.labels o.spec

theorem lawful_empty (law : ObjectLaw) (clock : Nat) : (Store.empty clock).Lawful law := by
  refine ⟨sound_empty clock, ?_⟩
  intro k key o found
  cases k <;> cases found

theorem Lawful.later (lawful : s.Lawful law) (clock : Nat) : Lawful law { s with clock } :=
  ⟨lawful.sound.next (.later clock), lawful.objects⟩

theorem Lawful.commit (lawful : s.Lawful law) {o : Object k} (accepted : o.info.isPersisted = true)
    (fits : law k o.key o.info.labels o.spec) (before : Dict String) (change : Change) :
    (s.commit o before change).Lawful law := by
  refine ⟨lawful.sound.commit accepted before change, ?_⟩
  intro j key x found
  by_cases kind : j = k
  · subst kind
    by_cases same : key = o.key
    · subst same
      rw [getByKey_commit_self] at found
      cases found
      exact fits
    · rw [getByKey_commit_of_ne s o before change same] at found
      exact lawful.objects j key x found
  · rw [(agrees_commit kind s o before change).getByKey] at found
    exact lawful.objects j key x found

theorem Lawful.delete (lawful : s.Lawful law) (k : Kind) (ns name : String) :
    (s.delete k ns name).2.Lawful law := by
  refine ⟨lawful.sound.delete k ns name, ?_⟩
  intro j key x found
  by_cases kind : j = k
  · subst kind
    rw [getByKey_delete] at found
    split at found
    · cases found
    · exact lawful.objects j key x found
  · rw [(agrees_delete kind s ns name).getByKey] at found
    exact lawful.objects j key x found

theorem Lawful.created (lawful : s.Lawful law) {o : Object k}
    (fits : law k o.key o.info.labels o.spec) (t : Store) : (s.commit (t.accepted o) ∅ .created).Lawful law := by
  have same : law k (t.accepted o).key (t.accepted o).info.labels (t.accepted o).spec := fits
  exact lawful.commit rfl same _ _

theorem Lawful.respecified (lawful : s.Lawful law) {key : String} {current o : Object k}
    (found : s.getByKey k key = some current) (fits : law k key o.info.labels o.spec) :
    (s.commit (Store.respecified current o) current.info.labels .specUpdated).Lawful law := by
  obtain rfl := lawful.sound.keyed k key current found
  exact lawful.commit (decide_eq_true (Nat.succ_pos _)) fits _ _

theorem Lawful.restated (lawful : s.Lawful law) {key : String} {current : Object k}
    (found : s.getByKey k key = some current) (status : k.Status) :
    (s.commit (Store.restated current status) current.info.labels .statusUpdated).Lawful law := by
  obtain rfl := lawful.sound.keyed k key current found
  have accepted : (Store.restated current status).info.isPersisted = true :=
    lawful.sound.accepted k _ current found
  have fits : law k (Store.restated current status).key (Store.restated current status).info.labels
      (Store.restated current status).spec := lawful.objects k _ current found
  exact lawful.commit accepted fits _ _

end Store

namespace Pass

open Store

variable {ε ε' α β : Type} {k : Kind} {s : Store} {law : ObjectLaw}

/-! ## What an intent is made of -/

/-- What a client that lost the race for a key is told. -/
def lostRace : StoreError → StoreError
  | .alreadyExists kind key => .conflict kind key 0 1
  | e => e

theorem write_perform_create (o : Object k) : Pass.write ((Intent.create o).perform ·) =
    (some <$> (Pass.write (·.create o)).within lostRace : Pass StoreError (Option (Object k))) := by
  funext t
  show _ = EStateM.map some ((Pass.write (·.create o)).within lostRace) t
  simp only [Pass.write, Pass.within, EStateM.map, Intent.perform]
  cases t.create o with
  | ok made => rfl
  | error e => cases e <;> rfl

theorem write_perform_replaceSpec (o : Object k) : Pass.write ((Intent.replaceSpec o).perform ·) =
    (some <$> Pass.write (·.updateSpec o) : Pass StoreError (Option (Object k))) := by
  funext t
  show _ = EStateM.map some (Pass.write (·.updateSpec o)) t
  simp only [Pass.write, EStateM.map, Intent.perform]
  cases t.updateSpec o <;> rfl

theorem write_perform_replaceStatus (o : Object k) : Pass.write ((Intent.replaceStatus o).perform ·) =
    (some <$> Pass.write (·.updateStatus o) : Pass StoreError (Option (Object k))) := by
  funext t
  show _ = EStateM.map some (Pass.write (·.updateStatus o)) t
  simp only [Pass.write, EStateM.map, Intent.perform]
  cases t.updateStatus o <;> rfl

/-! ## Programs that keep the law -/

/-- Whatever comes of a program, the store it leaves is lawful. -/
def Upholds (law : ObjectLaw) (part : Pass ε α) (s : Store) : Prop :=
  Leads part s (fun _ s' => s'.Lawful law) fun _ s' => s'.Lawful law

theorem Upholds.left {part : Pass ε α} (upholds : part.Upholds law s) :
    (part.left s).Lawful law := Leaves.left upholds

theorem Upholds.map {part : Pass ε α} (upholds : part.Upholds law s) (f : α → β) :
    Upholds law (f <$> part) s := Leads.map upholds

theorem Upholds.within {part : Pass ε α} (upholds : part.Upholds law s) (wrap : ε → ε') :
    Upholds law (part.within wrap) s := Leads.within upholds

theorem Upholds.bind {part : Pass ε α} {next : α → Pass ε β} (upholds : part.Upholds law s)
    (rest : ∀ a s', s'.Lawful law → (next a).Upholds law s') : Upholds law (part >>= next) s :=
  Leads.bind upholds rest

theorem upholds_pure (lawful : s.Lawful law) (a : α) : Upholds law (pure a : Pass ε α) s := lawful

theorem upholds_write {op : Store → Except StoreError (α × Store)} (lawful : s.Lawful law)
    (done : ∀ a s', op s = .ok (a, s') → s'.Lawful law) : Upholds law (Pass.write op) s :=
  leads_write done fun _ _ => lawful

theorem upholds_create (lawful : s.Lawful law) {o : Object k}
    (fits : law k o.key o.info.labels o.spec) : Upholds law (Pass.write (·.create o)) s := by
  refine upholds_write lawful fun made s' done => ?_
  obtain ⟨-, -, rfl⟩ := eq_of_create done
  exact lawful.created fits s

theorem upholds_updateSpec (lawful : s.Lawful law) {o : Object k}
    (fits : law k o.key o.info.labels o.spec) : Upholds law (Pass.write (·.updateSpec o)) s := by
  refine upholds_write lawful fun written s' done => ?_
  obtain ⟨current, found, -, -, rfl⟩ := eq_of_updateSpec done
  exact lawful.respecified found fits

theorem upholds_updateStatus (lawful : s.Lawful law) (o : Object k) :
    Upholds law (Pass.write (·.updateStatus o)) s := by
  refine upholds_write lawful fun written s' done => ?_
  obtain ⟨current, found, -, -, rfl⟩ := eq_of_updateStatus done
  exact lawful.restated found o.status

/-- What an intent creates or respecifies is as the law asks. -/
def Respects (law : ObjectLaw) : Intent k → Prop
  | .nothing _ => True
  | .create o => law k o.key o.info.labels o.spec
  | .replaceSpec o => law k o.key o.info.labels o.spec
  | .replaceStatus _ => True

theorem upholds_edit (lawful : s.Lawful law) {intend : Store → Intent k}
    (respects : Respects law (intend s)) : Upholds law (edit intend) s := by
  have performed : Upholds law (Pass.write ((intend s).perform ·)) s := by
    cases intent : intend s with
    | nothing seen =>
        refine upholds_write lawful fun a s' done => ?_
        cases done
        exact lawful
    | create o =>
        rw [intent] at respects
        rw [write_perform_create]
        exact ((upholds_create lawful respects).within lostRace).map some
    | replaceSpec o =>
        rw [intent] at respects
        rw [write_perform_replaceSpec]
        exact (upholds_updateSpec lawful respects).map some
    | replaceStatus o =>
        rw [write_perform_replaceStatus]
        exact (upholds_updateStatus lawful o).map some
  unfold Upholds Leads
  rw [edit_eq_attempt]
  exact performed.bind fun _ _ kept => upholds_pure kept _

theorem upholds_delete (lawful : s.Lawful law) (k : Kind) (ns name : String) (f : Bool → α) :
    Upholds law (Pass.write fun s => .ok (f (s.delete k ns name).1, (s.delete k ns name).2)) s :=
  lawful.delete k ns name

theorem upholds_mapM {part : β → Pass ε α} {xs : List β}
    (each : ∀ x ∈ xs, ∀ s, s.Lawful law → (part x).Upholds law s) (lawful : s.Lawful law) :
    Upholds law (xs.mapM part) s := leaves_mapM each lawful

theorem upholds_apply (lawful : s.Lawful law) {desired : Object k}
    (fits : law k desired.key desired.info.labels desired.spec) :
    Upholds law (apply desired) s := by
  refine Upholds.map (upholds_edit lawful ?_) _
  unfold intendApply
  cases found : s.getByKey k desired.key with
  | none => exact fits
  | some current =>
      simp only
      split
      · trivial
      · show law k current.key desired.info.labels desired.spec
        rw [lawful.sound.keyed k _ current found]
        exact fits

theorem upholds_modifySpec (lawful : s.Lawful law) {f : Object k → Object k}
    (fits : ∀ o : Object k, law k o.key o.info.labels o.spec →
      law k (f o).key (f o).info.labels (f o).spec) (ns name : String) :
    Upholds law (modifySpec k ns name f) s := by
  refine (upholds_edit lawful ?_).map _
  unfold intendSpec
  cases found : s.get k ns name with
  | none => trivial
  | some current =>
      simp only
      split
      · trivial
      · have here := lawful.objects k _ current found
        rw [← lawful.sound.keyed k _ current found] at here
        exact fits current here

theorem upholds_modifyStatus (lawful : s.Lawful law) (ns name : String)
    (f : Object k → k.Status) : Upholds law (modifyStatus k ns name f) s := by
  refine (upholds_edit lawful ?_).map _
  unfold intendStatus
  split
  · trivial
  · simp only
    split <;> trivial

end Pass

/-! ## Requests that keep the law -/

/-- What a request creates or respecifies is as the law asks. -/
def Request.Keeps (law : ObjectLaw) : Request → Prop
  | .create (k := k) o => law k o.key o.info.labels o.spec
  | .updateSpec (k := k) o => law k o.key o.info.labels o.spec
  | .apply (k := k) o => law k o.key o.info.labels o.spec
  | .modifySpec k _ _ f => ∀ o : Object k, law k o.key o.info.labels o.spec →
      law k (f o).key (f o).info.labels (f o).spec
  | _ => True

theorem Store.Lawful.serve {law : ObjectLaw} {s : Store} (lawful : s.Lawful law) {r : Request}
    (keeps : r.Keeps law) : (s.serve r).Lawful law := by
  cases r with
  | create o => exact (Pass.upholds_create lawful keeps).left
  | updateSpec o => exact (Pass.upholds_updateSpec lawful keeps).left
  | updateStatus o => exact (Pass.upholds_updateStatus lawful o).left
  | delete k ns name => exact lawful.delete k ns name
  | apply desired => exact (Pass.upholds_apply lawful keeps).left
  | modifySpec k ns name f => exact (Pass.upholds_modifySpec lawful keeps ns name).left
  | modifyStatus k ns name f => exact (Pass.upholds_modifyStatus lawful ns name f).left
  | wait clock => exact lawful.later clock

end Cutover
