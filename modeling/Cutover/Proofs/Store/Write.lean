/-
# Cutover.Proofs.Store.Write -- what a write does and leaves alone

A store is `Sound` if every object stands under its own key and has been accepted by a
store.  The empty store is, and every write keeps it so (`Sound.perform`, `Sound.delete`).

`Agrees k s s'` says that nothing about one kind has changed from one store to another:
look-ups, lists and queries of that kind give the same.  A write of another kind
agrees on it (`agrees_commit`, `agrees_delete`).

Passes are programs that may fail, so `Pass.Ends` is total: the pass succeeds, and its
result and the store after it are as stated.  On a sound store that nobody else
writes, every edit ends, in a store that is the old one or one `commit` away.
`Pass.Leads` says what holds after a success and what after a failure.
-/
import Cutover.Proofs.Store.Index
import Cutover.Store.Edit

namespace Cutover

set_option autoImplicit false

/-! ## Programs that succeed -/

namespace Pass

variable {ε ε' α β : Type} {s : Store}

/-- The pass succeeds, with a result and a store of which something holds. -/
def Ends (part : Pass ε α) (s : Store) (post : α → Store → Prop) : Prop :=
  ∃ a s', part s = .ok a s' ∧ post a s'

theorem Ends.mono {part : Pass ε α} {post post' : α → Store → Prop} (ends : Ends part s post)
    (weaker : ∀ a s', post a s' → post' a s') : Ends part s post' := by
  obtain ⟨a, s', same, holds⟩ := ends
  exact ⟨a, s', same, weaker a s' holds⟩

theorem ends_pure {a : α} {post : α → Store → Prop} (holds : post a s) :
    Ends (pure a : Pass ε α) s post := ⟨a, s, rfl, holds⟩

theorem Ends.bind {part : Pass ε α} {next : α → Pass ε β} {mid : α → Store → Prop}
    {post : β → Store → Prop} (ends : Ends part s mid)
    (rest : ∀ a s', mid a s' → Ends (next a) s' post) : Ends (part >>= next) s post := by
  obtain ⟨a, s', same, holds⟩ := ends
  obtain ⟨b, s'', same', holds'⟩ := rest a s' holds
  refine ⟨b, s'', ?_, holds'⟩
  show EStateM.bind part next s = _
  simp only [EStateM.bind, same, same']

/-- A pass that reads the store goes on with it. -/
theorem ends_read {next : Store → Pass ε β} {post : β → Store → Prop}
    (rest : Ends (next s) s post) : Ends (getThe Store >>= next) s post := by
  obtain ⟨b, s', same, holds⟩ := rest
  exact ⟨b, s', same, holds⟩

theorem Ends.map {part : Pass ε α} {f : α → β} {post : β → Store → Prop}
    (ends : Ends part s fun a s' => post (f a) s') : Ends (f <$> part) s post := by
  obtain ⟨a, s', same, holds⟩ := ends
  refine ⟨f a, s', ?_, holds⟩
  show EStateM.map f part s = _
  simp only [EStateM.map, same]

theorem Ends.discard {part : Pass ε α} {post : α → Store → Prop} (ends : Ends part s post) :
    Ends (discard part) s fun _ s' => ∃ a, post a s' :=
  Ends.map (ends.mono fun a _ holds => ⟨a, holds⟩)

theorem Ends.within {wrap : ε → ε'} {part : Pass ε α} {post : α → Store → Prop}
    (ends : Ends part s post) : Ends (part.within wrap) s post := by
  obtain ⟨a, s', same, holds⟩ := ends
  refine ⟨a, s', ?_, holds⟩
  unfold Pass.within
  simp only [same]

theorem ends_write {op : Store → Except StoreError (α × Store)} {a : α} {s' : Store}
    (same : op s = .ok (a, s')) {post : α → Store → Prop} (holds : post a s') :
    Ends (Pass.write op) s post := by
  refine ⟨a, s', ?_, holds⟩
  unfold Pass.write
  simp only [same]

theorem Ends.retryOnConflict {part : Pass StoreError α} {post : α → Store → Prop} {attempts : Nat}
    (ends : Ends part s post) : Ends (Cutover.retryOnConflict attempts part) s post := by
  obtain ⟨a, s', same, holds⟩ := ends
  refine ⟨a, s', ?_, holds⟩
  unfold Cutover.retryOnConflict
  cases attempts - 1 with
  | zero => exact same
  | succ more => simp only [retrying, same]

/-! ## Programs that may fail -/

/-- The pass succeeds, with a result and a store of which something holds, or fails, with an
error and a store of which something else does. -/
def Leads (part : Pass ε α) (s : Store) (post : α → Store → Prop) (fails : ε → Store → Prop) :
    Prop :=
  match part s with
  | .ok a s' => post a s'
  | .error e s' => fails e s'

section Leads

variable {part : Pass ε α} {post post' : α → Store → Prop} {fails fails' : ε → Store → Prop}

theorem Ends.leads (ends : Ends part s post) : Leads part s post fails := by
  obtain ⟨a, s', same, holds⟩ := ends
  unfold Leads
  rw [same]
  exact holds

theorem Leads.of_ok (leads : Leads part s post fails) {a : α} {s' : Store}
    (done : part s = .ok a s') : post a s' := by
  unfold Leads at leads
  rwa [done] at leads

theorem Leads.of_error (leads : Leads part s post fails) {e : ε} {s' : Store}
    (failed : part s = .error e s') : fails e s' := by
  unfold Leads at leads
  rwa [failed] at leads

theorem Leads.ends (leads : Leads part s post fails) (never : ∀ e s', ¬ fails e s') :
    Ends part s post := by
  cases done : part s with
  | ok a s' => exact ⟨a, s', done, leads.of_ok done⟩
  | error e s' => exact absurd (leads.of_error done) (never e s')

theorem Leads.mono (leads : Leads part s post fails) (weaker : ∀ a s', post a s' → post' a s')
    (weaker' : ∀ e s', fails e s' → fails' e s') : Leads part s post' fails' := by
  unfold Leads at leads ⊢
  split at leads
  · exact weaker _ _ leads
  · exact weaker' _ _ leads

theorem leads_throw {e : ε} (holds : fails e s) : Leads (throw e : Pass ε α) s post fails := holds

theorem leads_write {op : Store → Except StoreError (α × Store)} {post : α → Store → Prop}
    {fails : StoreError → Store → Prop} (done : ∀ a s', op s = .ok (a, s') → post a s')
    (failed : ∀ e, op s = .error e → fails e s) : Leads (Pass.write op) s post fails := by
  unfold Leads Pass.write
  cases result : op s with
  | ok r => exact done r.1 r.2 result
  | error e => exact failed e result

theorem Leads.bind {next : α → Pass ε β} {mid : α → Store → Prop} {post : β → Store → Prop}
    (leads : Leads part s mid fails)
    (rest : ∀ a s', mid a s' → Leads (next a) s' post fails) :
    Leads (part >>= next) s post fails := by
  show (match EStateM.bind part next s with | .ok a s' => post a s' | .error e s' => fails e s')
  unfold EStateM.bind
  cases done : part s with
  | ok a s' => exact rest a s' (leads.of_ok done)
  | error e s' => exact leads.of_error done

theorem Leads.map {f : α → β} {post : β → Store → Prop}
    (leads : Leads part s (fun a s' => post (f a) s') fails) : Leads (f <$> part) s post fails := by
  show Leads (EStateM.map f part) s post fails
  unfold Leads EStateM.map
  cases done : part s with
  | ok a s' => exact leads.of_ok done
  | error e s' => exact leads.of_error done

theorem leads_read {next : Store → Pass ε β} {post : β → Store → Prop}
    (rest : Leads (next s) s post fails) : Leads (getThe Store >>= next) s post fails := rest

theorem leads_modify {f : Store → Store} {next : Unit → Pass ε β} {post : β → Store → Prop}
    (rest : Leads (next ()) (f s) post fails) : Leads (modify f >>= next) s post fails := rest

theorem Leads.within {wrap : ε → ε'} {fails : ε' → Store → Prop}
    (leads : Leads part s post fun e s' => fails (wrap e) s') :
    Leads (part.within wrap) s post fails := by
  unfold Leads Pass.within
  cases done : part s with
  | ok a s' => exact leads.of_ok done
  | error e s' => exact leads.of_error done

end Leads

/-! ## Writes over a list -/

theorem ends_mapM {part : α → Pass ε β} {xs : List α} {inv : Store → Prop}
    (each : ∀ x ∈ xs, ∀ s, inv s → Ends (part x) s fun _ s' => inv s') (start : inv s) :
    Ends (xs.mapM part) s fun _ s' => inv s' := by
  induction xs generalizing s with
  | nil => exact ends_pure start
  | cons x xs ih =>
      obtain ⟨here, there⟩ := List.forall_mem_cons.1 each
      rw [List.mapM_cons]
      refine (here s start).bind fun y s₁ kept => ?_
      exact (ih there kept).bind fun ys s₂ kept => ends_pure kept

theorem ends_forM {part : α → Pass ε Unit} {xs : List α} {inv : Store → Prop}
    (each : ∀ x ∈ xs, ∀ s, inv s → Ends (part x) s fun _ s' => inv s') (start : inv s) :
    Ends (xs.forM part) s fun _ s' => inv s' := by
  induction xs generalizing s with
  | nil => exact ends_pure start
  | cons x xs ih =>
      obtain ⟨here, there⟩ := List.forall_mem_cons.1 each
      exact (here s start).bind fun _ s₁ kept => ih there kept

end Pass

namespace Store

variable {j k : Kind} {s s' s'' : Store}

/-! ## What a write leaves alone -/

/-- Nothing about one kind has changed. -/
structure Agrees (k : Kind) (s s' : Store) : Prop where
  table : s'.tables.get k = s.tables.get k
  found : ∀ label value, s'.index.keysUnder (Index.stem k label value) =
    s.index.keysUnder (Index.stem k label value)

theorem Agrees.refl (k : Kind) (s : Store) : Agrees k s s := ⟨rfl, fun _ _ => rfl⟩

theorem Agrees.trans (first : Agrees k s s') (second : Agrees k s' s'') : Agrees k s s'' :=
  ⟨second.table.trans first.table,
    fun label value => (second.found label value).trans (first.found label value)⟩

theorem Agrees.getByKey (agrees : Agrees k s s') (key : String) :
    s'.getByKey k key = s.getByKey k key := by
  unfold Store.getByKey
  rw [agrees.table]

theorem Agrees.get (agrees : Agrees k s s') (ns name : String) :
    s'.get k ns name = s.get k ns name := agrees.getByKey _

theorem Agrees.matching (agrees : Agrees k s s') (query : Selector) :
    s'.matching k query = s.matching k query := by
  unfold Store.matching Store.list
  simp only [agrees.table, agrees.found, agrees.getByKey]

theorem agrees_commit (ne : j ≠ k) (s : Store) (o : Object k) (before : Dict String)
    (change : Change) : Agrees j s (s.commit o before change) :=
  ⟨Tables.get_set_of_ne _ _ ne, Index.keysUnder_relabel_of_ne ne _ _ _ _⟩

theorem agrees_delete (ne : j ≠ k) (s : Store) (ns name : String) :
    Agrees j s (s.delete k ns name).2 := by
  unfold Store.delete
  simp only
  split
  · exact Agrees.refl j s
  · exact ⟨Tables.get_set_of_ne _ _ ne, Index.keysUnder_relabel_of_ne ne _ _ _ _⟩

/-! ## What stands under a key after a write -/

section Commit

variable (s) (o : Object k) (before : Dict String) (change : Change)

@[simp] theorem getByKey_commit_self : (s.commit o before change).getByKey k o.key = some o := by
  simp [Store.commit, Store.getByKey]

theorem getByKey_commit_of_ne {key : String} (ne : key ≠ o.key) :
    (s.commit o before change).getByKey k key = s.getByKey k key := by
  simp [Store.commit, Store.getByKey, Dict.get?_insert_of_ne _ _ ne]

end Commit

/-- The store without the object of a key, and without the entries of its labels. -/
theorem getByKey_delete (s : Store) (ns name key : String) : (s.delete k ns name).2.getByKey k key =
    if key = objectKey ns name then none else s.getByKey k key := by
  cases found : s.getByKey k (objectKey ns name) with
  | none =>
      simp only [Store.delete, found]
      split
      · rename_i same
        rw [same, found]
      · rfl
  | some current =>
      simp only [Store.delete, found]
      show ((s.tables.set k _).get k).get? key = _
      rw [Tables.get_set_self, Dict.get?_erase]
      rfl

theorem index_delete_of_some {current : Object k} {ns name : String}
    (found : s.getByKey k (objectKey ns name) = some current) :
    (s.delete k ns name).2.index =
      s.index.relabel k (objectKey ns name) current.info.labels ∅ := by
  unfold Store.delete
  simp only [found]

/-! ## Sound stores -/

/-- Every object stands under its own key and has been accepted by a store. -/
structure Sound (s : Store) : Prop where
  keyed : ∀ (k : Kind) (key : String) (o : Object k), s.getByKey k key = some o → o.key = key
  accepted : ∀ (k : Kind) (key : String) (o : Object k), s.getByKey k key = some o →
    o.info.isPersisted = true

theorem getByKey_empty (clock : Nat) (k : Kind) (key : String) :
    (Store.empty clock).getByKey k key = none := by cases k <;> rfl

theorem sound_empty (clock : Nat) : Sound (Store.empty clock) := by
  constructor
  · intro k key o found
    rw [getByKey_empty] at found
    cases found
  · intro k key o found
    rw [getByKey_empty] at found
    cases found

theorem Sound.commit (sound : Sound s) {o : Object k} (accepted : o.info.isPersisted = true)
    (before : Dict String) (change : Change) : Sound (s.commit o before change) := by
  have either {i : Kind} {key : String} {x : Object i}
      (found : (s.commit o before change).getByKey i key = some x) :
      s.getByKey i key = some x ∨ x.key = key ∧ x.info.isPersisted = true := by
    by_cases kind : i = k
    · subst kind
      by_cases same : key = o.key
      · subst same
        rw [getByKey_commit_self] at found
        cases found
        exact .inr ⟨rfl, accepted⟩
      · rw [getByKey_commit_of_ne s o before change same] at found
        exact .inl found
    · rw [(agrees_commit kind s o before change).getByKey] at found
      exact .inl found
  constructor
  · intro i key x found
    rcases either found with before | new
    · exact sound.keyed i key x before
    · exact new.1
  · intro i key x found
    rcases either found with before | new
    · exact sound.accepted i key x before
    · exact new.2

theorem Sound.delete (sound : Sound s) (k : Kind) (ns name : String) :
    Sound (s.delete k ns name).2 := by
  have before {i : Kind} {key : String} {x : Object i}
      (found : (s.delete k ns name).2.getByKey i key = some x) : s.getByKey i key = some x := by
    by_cases kind : i = k
    · subst kind
      rw [getByKey_delete] at found
      split at found
      · cases found
      · exact found
    · rwa [(agrees_delete kind s ns name).getByKey] at found
  exact ⟨fun i key x found => sound.keyed i key x (before found),
    fun i key x found => sound.accepted i key x (before found)⟩

theorem Sound.create {o o' : Object k} (sound : Sound s) (done : s.create o = .ok (o', s')) :
    Sound s' := by
  unfold Store.create at done
  simp only at done
  split at done
  · cases done
  · cases done
    exact sound.commit rfl _ _

theorem Sound.updateSpec {o o' : Object k} (sound : Sound s)
    (done : s.updateSpec o = .ok (o', s')) : Sound s' := by
  unfold Store.updateSpec at done
  split at done
  · cases done
  · split at done
    · cases done
    · cases done
      exact sound.commit (decide_eq_true (Nat.succ_pos _)) _ _

theorem Sound.updateStatus {o o' : Object k} (sound : Sound s)
    (done : s.updateStatus o = .ok (o', s')) : Sound s' := by
  unfold Store.updateStatus at done
  split at done
  · cases done
  · rename_i current found
    split at done
    · cases done
    · cases done
      refine sound.commit ?_ _ _
      exact sound.accepted k _ current found

/-- Whatever is done to a sound store, it stays sound. -/
theorem Sound.perform {intent : Intent k} {o : Option (Object k)} (sound : Sound s)
    (done : intent.perform s = .ok (o, s')) : Sound s' := by
  cases intent with
  | nothing seen =>
      cases done
      exact sound
  | create new =>
      simp only [Intent.perform] at done
      split at done
      · rename_i created
        cases done
        exact sound.create created
      · cases done
      · cases done
  | replaceSpec new =>
      cases written : s.updateSpec new with
      | error e =>
          simp only [Intent.perform, written] at done
          cases done
      | ok result =>
          simp only [Intent.perform, written] at done
          cases done
          exact sound.updateSpec written
  | replaceStatus new =>
      cases written : s.updateStatus new with
      | error e =>
          simp only [Intent.perform, written] at done
          cases done
      | ok result =>
          simp only [Intent.perform, written] at done
          cases done
          exact sound.updateStatus written

/-! ## Replacing an object -/

/-- One object has come in place of another with its key; all else is as it was. -/
structure Replaces (o o' : Object k) (s s' : Store) : Prop where
  here : s'.getByKey k o.key = some o'
  there : ∀ key, key ≠ o.key → s'.getByKey k key = s.getByKey k key
  index : s'.index = s.index.relabel k o.key o.info.labels o'.info.labels
  others : ∀ j, j ≠ k → Agrees j s s'
  sound : Sound s'

theorem Replaces.refl {o : Object k} (sound : Sound s) (found : s.getByKey k o.key = some o) :
    Replaces o o s s where
  here := found
  there := fun _ _ => rfl
  index := (Index.relabel_self ..).symm
  others := fun j _ => Agrees.refl j s
  sound := sound

theorem replaces_commit {o o' : Object k} (sound : Sound s) (key : o'.key = o.key)
    (accepted : o'.info.isPersisted = true) (change : Change) :
    Replaces o o' s (s.commit o' o.info.labels change) where
  here := by rw [← key, getByKey_commit_self]
  there := fun other ne => getByKey_commit_of_ne s o' _ change (key ▸ ne)
  index := by rw [← key]; rfl
  others := fun j ne => agrees_commit ne s o' _ change
  sound := sound.commit accepted _ change

/-- The object as a store accepts it under a free key. -/
def accepted (s : Store) (o : Object k) : Object k :=
  { o with
    info.createdAt := if o.info.createdAt = 0 then s.clock else o.info.createdAt
    info.specVersion := 1
    info.statusVersion := 1 }

/-- The stored object with the spec, labels and owner of another. -/
def respecified (current o : Object k) : Object k :=
  { current with
    spec := o.spec
    info.labels := o.info.labels
    info.owner := o.info.owner
    info.specVersion := current.info.specVersion + 1 }

/-- The stored object with another status. -/
def restated (current : Object k) (status : k.Status) : Object k :=
  { current with
    status
    info.statusVersion := current.info.statusVersion + 1 }

theorem create_eq {o : Object k} (free : s.getByKey k o.key = none) :
    s.create o = .ok (s.accepted o, s.commit (s.accepted o) ∅ .created) := by
  have free' : s.getByKey k (s.accepted o).key = none := free
  unfold Store.create
  simp only [accepted] at free' ⊢
  rw [free']

theorem create_taken {current o : Object k} (found : s.getByKey k o.key = some current) :
    s.create o = .error (.alreadyExists k o.key) := by
  have taken : s.getByKey k (s.accepted o).key = some current := found
  unfold Store.create
  simp only [accepted] at taken ⊢
  rw [taken]
  rfl

theorem updateSpec_eq {current o : Object k} (found : s.getByKey k o.key = some current)
    (seen : current.info.specVersion = o.info.specVersion) :
    s.updateSpec o = .ok (respecified current o,
      s.commit (respecified current o) current.info.labels .specUpdated) := by
  unfold Store.updateSpec
  simp only [found]
  exact if_neg (not_not_intro seen)

theorem updateSpec_stale {current o : Object k} (found : s.getByKey k o.key = some current)
    (stale : current.info.specVersion ≠ o.info.specVersion) : s.updateSpec o =
      .error (.conflict k o.key o.info.specVersion current.info.specVersion) := by
  unfold Store.updateSpec
  simp only [found]
  exact if_pos stale

theorem updateStatus_eq {current o : Object k} (found : s.getByKey k o.key = some current)
    (seen : current.info.statusVersion = o.info.statusVersion) :
    s.updateStatus o = .ok (restated current o.status,
      s.commit (restated current o.status) current.info.labels .statusUpdated) := by
  unfold Store.updateStatus
  simp only [found]
  exact if_neg (not_not_intro seen)

theorem updateStatus_stale {current o : Object k} (found : s.getByKey k o.key = some current)
    (stale : current.info.statusVersion ≠ o.info.statusVersion) : s.updateStatus o =
      .error (.conflict k o.key o.info.statusVersion current.info.statusVersion) := by
  unfold Store.updateStatus
  simp only [found]
  exact if_pos stale

/-! ## Edits end -/

theorem ends_edit {intend : Store → Intent k} {o : Option (Object k)}
    (performed : (intend s).perform s = .ok (o, s'))
    {post : Option (Object k) × Bool → Store → Prop} (holds : post (o, (intend s).writes) s') :
    Pass.Ends (edit intend) s post := by
  unfold edit attempt
  have written : Pass.Ends (Pass.write ((intend s).perform ·)) s fun a t => a = o ∧ t = s' :=
    Pass.ends_write performed ⟨rfl, rfl⟩
  refine Pass.Ends.retryOnConflict (Pass.ends_read (written.bind ?_))
  rintro a t ⟨rfl, rfl⟩
  exact Pass.ends_pure holds

/-- The status of a stored object can be edited. -/
theorem ends_modifyStatus (sound : Sound s) {ns name : String} {o : Object k}
    (found : s.get k ns name = some o) (f : Object k → k.Status) :
    Pass.Ends (modifyStatus k ns name f) s fun _ s' => ∃ version,
      Replaces o { o with status := f o, info.statusVersion := version } s s' := by
  have key : o.key = objectKey ns name := sound.keyed k _ o found
  have found' : s.getByKey k o.key = some o := key ▸ found
  refine Pass.Ends.map ?_
  by_cases same : f o = o.status
  · have intent : s.intendStatus ns name f = .nothing (some o) := by
      unfold intendStatus
      simp only [found, same, if_true]
    have performed : (s.intendStatus ns name f).perform s = .ok (some o, s) := by
      rw [intent]
      rfl
    refine ends_edit performed ⟨o.info.statusVersion, ?_⟩
    rw [same]
    exact Replaces.refl sound found'
  · have intent : s.intendStatus ns name f = .replaceStatus { o with status := f o } := by
      unfold intendStatus
      simp only [found, same, if_false]
    have written := updateStatus_eq (o := { o with status := f o }) found' rfl
    have accepted : (restated o (f o)).info.isPersisted = true := sound.accepted k _ o found
    have replaces := replaces_commit sound (show (restated o (f o)).key = o.key from rfl) accepted
      .statusUpdated
    exact ends_edit (by rw [intent, Intent.perform, written]; rfl)
      ⟨o.info.statusVersion + 1, replaces⟩

/-- Whatever stands under a key, its status can be edited. -/
theorem ends_modifyStatus_any (sound : Sound s) (ns name : String) (f : Object k → k.Status) :
    Pass.Ends (modifyStatus k ns name f) s fun _ s' => s' = s ∨ ∃ (o : Object k) (version : Nat),
      s.getByKey k o.key = some o ∧
        Replaces o { o with status := f o, info.statusVersion := version } s s' := by
  cases found : s.get k ns name with
  | none =>
      have intent : s.intendStatus ns name f = .nothing none := by
        unfold intendStatus
        simp only [found]
      exact Pass.Ends.map (ends_edit (by rw [intent]; rfl) (.inl rfl))
  | some o =>
      have stored : s.getByKey k o.key = some o := by
        rw [sound.keyed k _ o found]
        exact found
      refine (ends_modifyStatus sound found f).mono ?_
      rintro - s' ⟨version, replaces⟩
      exact .inr ⟨o, version, stored, replaces⟩

/-- A desired object can be stored: its key then holds an object with its spec, labels and
owner. -/
theorem ends_apply_same (sound : Sound s) (desired : Object k) :
    Pass.Ends (apply desired) s fun r s' => sameSpec r.1 desired = true ∧
      s'.getByKey k desired.key = some r.1 ∧ (∀ j, j ≠ k → Agrees j s s') ∧ Sound s' := by
  have edited : Pass.Ends (edit (·.intendApply desired)) s fun r s' => ∃ o, r.1 = some o ∧
      sameSpec o desired = true ∧ s'.getByKey k desired.key = some o ∧
      (∀ j, j ≠ k → Agrees j s s') ∧ Sound s' := by
    cases found : s.getByKey k desired.key with
    | none =>
        have intent : s.intendApply desired = .create desired := by
          unfold intendApply
          simp only [found]
        refine ends_edit (by rw [intent, Intent.perform, create_eq found])
          ⟨s.accepted desired, rfl, by simp [sameSpec, accepted], ?_, ?_, ?_⟩
        · exact getByKey_commit_self s (s.accepted desired) ∅ .created
        · exact fun j ne => agrees_commit ne s _ _ _
        · exact sound.commit rfl _ _
    | some current =>
        have key : current.key = desired.key := sound.keyed k _ current found
        by_cases same : sameSpec current desired
        · have intent : s.intendApply desired = .nothing (some current) := by
            unfold intendApply
            simp only [found, same, if_true]
          have performed : (s.intendApply desired).perform s = .ok (some current, s) := by
            rw [intent]
            rfl
          exact ends_edit performed
            ⟨current, rfl, same, found, fun j _ => Agrees.refl j s, sound⟩
        · let wanted : Object k := { current with
            spec := desired.spec
            info.labels := desired.info.labels
            info.owner := desired.info.owner }
          have intent : s.intendApply desired = .replaceSpec wanted := by
            unfold intendApply
            simp only [found, same]
            rfl
          have found' : s.getByKey k wanted.key = some current := by
            show s.getByKey k current.key = _
            rw [key, found]
          have written := updateSpec_eq found' rfl
          refine ends_edit (by rw [intent, Intent.perform, written]; rfl)
            ⟨respecified current wanted, rfl, by simp [sameSpec, respecified, wanted], ?_, ?_, ?_⟩
          · rw [← key]
            exact getByKey_commit_self s (respecified current wanted) _ _
          · exact fun j ne => agrees_commit ne s _ _ _
          · exact sound.commit (decide_eq_true (Nat.succ_pos _)) _ _
  refine edited.bind ?_
  rintro ⟨o, changed⟩ s' ⟨stored, rfl, holds⟩
  exact Pass.ends_pure holds

theorem spec_eq_of_sameSpec {o p : Object k} (same : sameSpec o p = true) : o.spec = p.spec := by
  simp only [sameSpec, Bool.and_eq_true, decide_eq_true_eq] at same
  exact same.1.1

theorem ends_apply (sound : Sound s) (desired : Object k) :
    Pass.Ends (apply desired) s fun r s' => r.1.spec = desired.spec ∧
      s'.getByKey k desired.key = some r.1 ∧ (∀ j, j ≠ k → Agrees j s s') ∧ Sound s' := by
  refine (ends_apply_same sound desired).mono ?_
  rintro r s' ⟨same, rest⟩
  exact ⟨spec_eq_of_sameSpec same, rest⟩

/-- With such an object under its key there is nothing to store. -/
theorem ends_apply_stored_same {current desired : Object k}
    (found : s.getByKey k desired.key = some current) (same : sameSpec current desired = true) :
    Pass.Ends (apply desired) s fun r s' => r.1 = current ∧ s' = s := by
  have intent : s.intendApply desired = .nothing (some current) := by
    unfold intendApply
    simp only [found, same, if_true]
  have edited : Pass.Ends (edit (·.intendApply desired)) s fun r s' =>
      r.1 = some current ∧ s' = s :=
    ends_edit (by rw [intent]; rfl) ⟨rfl, rfl⟩
  refine edited.bind ?_
  rintro ⟨o, changed⟩ s' ⟨rfl, rfl⟩
  exact Pass.ends_pure ⟨rfl, rfl⟩

/-- With nothing under its key a desired object is created. -/
theorem ends_apply_free {desired : Object k} (free : s.getByKey k desired.key = none) :
    Pass.Ends (apply desired) s fun r s' => r.1 = s.accepted desired ∧
      s' = s.commit (s.accepted desired) ∅ .created := by
  have intent : s.intendApply desired = .create desired := by
    unfold intendApply
    simp only [free]
  have edited : Pass.Ends (edit (·.intendApply desired)) s fun r s' =>
      r.1 = some (s.accepted desired) ∧ s' = s.commit (s.accepted desired) ∅ .created :=
    ends_edit (by rw [intent, Intent.perform, create_eq free]) ⟨rfl, rfl⟩
  refine edited.bind ?_
  rintro ⟨o, changed⟩ s' ⟨rfl, rfl⟩
  exact Pass.ends_pure ⟨rfl, rfl⟩

/-- The spec, labels and owner of a stored object are replaced by those of another, if they are
not the same. -/
theorem ends_edit_spec (sound : Sound s) {current o : Object k}
    (found : s.getByKey k current.key = some current) {intend : Store → Intent k}
    (intent : (sameSpec o current = true ∧ intend s = .nothing (some current)) ∨
      ∃ w, intend s = .replaceSpec w ∧ w.key = current.key ∧
        w.info.specVersion = current.info.specVersion ∧
        respecified current w = respecified current o) :
    Pass.Ends (edit intend) s fun _ s' => ∃ version,
      Replaces current { respecified current o with info.specVersion := version } s s' := by
  rcases intent with ⟨same, nothing⟩ | ⟨w, replace, key, version, written⟩
  · have performed : (intend s).perform s = .ok (some current, s) := by
      rw [nothing]
      rfl
    have unchanged : ({ respecified current o with
        info.specVersion := current.info.specVersion } : Object k) = current := by
      simp only [sameSpec, Bool.and_eq_true, decide_eq_true_eq] at same
      obtain ⟨⟨spec, labels⟩, owner⟩ := same
      simp only [respecified, spec, labels, owner]
    refine ends_edit performed ⟨current.info.specVersion, ?_⟩
    rw [unchanged]
    exact Replaces.refl sound found
  · have performed := updateSpec_eq (s := s) (o := w) (by rw [key, found]) version.symm
    rw [written] at performed
    have accepted : (respecified current o).info.isPersisted = true :=
      decide_eq_true (Nat.succ_pos _)
    refine ends_edit (by rw [replace, Intent.perform, performed]; rfl)
      ⟨current.info.specVersion + 1, ?_⟩
    exact replaces_commit sound (show (respecified current o).key = current.key from rfl) accepted _

/-- The spec of a stored object can be edited. -/
theorem ends_modifySpec (sound : Sound s) {ns name : String} {o : Object k}
    (found : s.get k ns name = some o) {f : Object k → Object k} (key : (f o).key = o.key) :
    Pass.Ends (modifySpec k ns name f) s fun _ s' => ∃ version,
      Replaces o { respecified o (f o) with info.specVersion := version } s s' := by
  have found' : s.getByKey k o.key = some o := by
    rw [sound.keyed k _ o found]
    exact found
  refine Pass.Ends.map (ends_edit_spec sound found' (o := f o) ?_)
  unfold intendSpec
  simp only [found]
  by_cases same : sameSpec (f o) o = true
  · exact .inl ⟨same, if_pos same⟩
  · exact .inr ⟨_, if_neg same, key, rfl, rfl⟩

theorem sameSpec_comm (o p : Object k) : sameSpec o p = sameSpec p o := by
  unfold sameSpec
  simp only [eq_comm]

/-- A desired object takes the place of the one that is stored under its key. -/
theorem ends_apply_stored (sound : Sound s) {current desired : Object k}
    (found : s.getByKey k desired.key = some current) :
    Pass.Ends (apply desired) s fun _ s' => ∃ version,
      Replaces current { respecified current desired with info.specVersion := version } s s' := by
  have key : current.key = desired.key := sound.keyed k _ current found
  refine (ends_edit_spec sound (key ▸ found) (o := desired) ?_).bind
    fun _ _ holds => Pass.ends_pure holds
  unfold intendApply
  simp only [found]
  by_cases same : sameSpec current desired = true
  · exact .inl ⟨sameSpec_comm desired current ▸ same, if_pos same⟩
  · exact .inr ⟨_, if_neg same, rfl, rfl, rfl⟩

end Store
end Cutover
