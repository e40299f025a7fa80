/-
# Cutover.Proofs.Store.Birth -- what an object is called and when it came

A stored object keeps the name and the time it was created with (`Commits.sameBirth`).  What
stands under a key now has therefore been there, under that name and since that time, unless
something was created under the key (`History.sameBirth`).

A program `Proceeds` if every store it leaves is reached by single writes that date what they
create with the clock (`Advance`).  So it tells the feed of all it does (`Reaches.history`), and
what is new when it ends was created at the clock's time (`Reaches.sameBirth_or_dated`).
-/
import Cutover.Proofs.Store.Feed
import Cutover.Proofs.Store.Law
import Mathlib.Logic.Relation

namespace Cutover

set_option autoImplicit false

/-! ## Births -/

/-- Two objects came into a store under one name and at one time. -/
structure SameBirth {k : Kind} (o o' : Object k) : Prop where
  ns : o'.info.ns = o.info.ns
  name : o'.name = o.name
  createdAt : o'.info.createdAt = o.info.createdAt

namespace SameBirth

variable {k : Kind} {o o' o'' : Object k}

theorem refl (o : Object k) : SameBirth o o := ⟨rfl, rfl, rfl⟩

theorem trans (first : SameBirth o o') (second : SameBirth o' o'') : SameBirth o o'' where
  ns := second.ns.trans first.ns
  name := second.name.trans first.name
  createdAt := second.createdAt.trans first.createdAt

end SameBirth

namespace Store

variable {k j : Kind} {s s' s'' : Store} {key key' : String} {events : List Event}

/-- What stands under a key before and after a change that is no creation has one birth. -/
theorem Became.sameBirth {before after : Option (Object k)} {change : Change}
    (became : Became before change after) (kept : change ≠ .created) {o' : Object k}
    (now : after = some o') : ∃ o, before = some o ∧ SameBirth o o' := by
  cases became with
  | created first => exact absurd rfl kept
  | written h current o =>
      cases now
      refine ⟨current, rfl, ?_⟩
      cases h <;> exact ⟨rfl, rfl, rfl⟩
  | deleted current => cases now

/-- One commit that creates nothing under a key leaves there what it was. -/
theorem Commits.sameBirth {before after : Option (Object j)} {change : Change}
    (commits : s.Commits j key' before change after s') {o' : Object k}
    (found : s'.getByKey k key = some o') (kept : k = j → key = key' → change ≠ .created) :
    ∃ o, s.getByKey k key = some o ∧ SameBirth o o' := by
  by_cases here : k = j ∧ key = key'
  · obtain ⟨rfl, rfl⟩ := here
    rw [commits.was]
    exact commits.became.sameBirth (kept rfl rfl) (commits.is.symm.trans found)
  · rw [commits.others k key here] at found
    exact ⟨o', found, SameBirth.refl o'⟩

/-- Some events tell of no creation under a key. -/
def NoneCreated (k : Kind) (key : String) (events : List Event) : Prop :=
  ∀ e ∈ events, e.about k key = true → e.change ≠ .created

/-- **Nobody is renamed or dated anew.**  Where nothing was created under a key, what stands there
now stood there before, under its name and with its time of creation. -/
theorem History.sameBirth (history : History s events s') (none_ : NoneCreated k key events)
    {o' : Object k} (found : s'.getByKey k key = some o') :
    ∃ o, s.getByKey k key = some o ∧ SameBirth o o' := by
  induction history with
  | nil s => exact ⟨o', found, SameBirth.refl o'⟩
  | later clock rest ih => exact ih none_ found
  | @commit s s₁ s' e events before after commits told rest ih =>
      obtain ⟨here, there⟩ := List.forall_mem_cons.1 none_
      obtain ⟨o₁, found₁, birth₁⟩ := ih there found
      have kept : k = e.kind → key = e.key → e.change ≠ .created := fun kind same =>
        here (decide_eq_true ⟨kind.symm, same.symm⟩)
      obtain ⟨o, found₀, birth₀⟩ := commits.sameBirth found₁ kept
      exact ⟨o, found₀, birth₀.trans birth₁⟩

/-! ## Writes at one time -/

/-- One write, or none, while the clock stands; what is new has the clock's time. -/
structure Advance (s s' : Store) : Prop where
  next : s.Next s'
  clock : s'.clock = s.clock
  dated : ∀ (k : Kind) (key : String) (o' : Object k), s.getByKey k key = none →
    s'.getByKey k key = some o' → o'.info.createdAt = s.clock

theorem Advance.refl (s : Store) : Advance s s := by
  refine ⟨.same, rfl, fun k key o' free found => ?_⟩
  rw [free] at found
  cases found

/-- A commit that is no creation dates nothing, and a creation its object. -/
theorem Commits.advance {before after : Option (Object k)} {change : Change}
    (commits : s.Commits k key before change after s') (next : s.Next s')
    (dated : change = .created → ∀ o', after = some o' → o'.info.createdAt = s.clock) :
    Advance s s' := by
  refine ⟨next, commits.clock, fun j other o' free found => ?_⟩
  by_cases created : change = .created ∧ j = k ∧ other = key
  · obtain ⟨made, rfl, rfl⟩ := created
    exact dated made o' (commits.is.symm.trans found)
  · obtain ⟨o, there, -⟩ := commits.sameBirth found fun kind same made => created ⟨made, kind, same⟩
    rw [free] at there
    cases there

theorem advance_create {o made : Object k} (undated : o.info.createdAt = 0)
    (done : s.create o = .ok (made, s')) : Advance s s' := by
  have next := next_create done
  obtain ⟨free, -, rfl⟩ := eq_of_create done
  refine (commits_created free).advance next fun _ o' same => ?_
  rw [← Option.some.inj same]
  show (if o.info.createdAt = 0 then s.clock else o.info.createdAt) = s.clock
  rw [if_pos undated]

theorem advance_updateSpec (sound : s.Sound) {o written : Object k}
    (done : s.updateSpec o = .ok (written, s')) : Advance s s' := by
  obtain ⟨before, commits⟩ := commits_updateSpec sound done
  exact commits.advance (next_updateSpec done) nofun

theorem advance_updateStatus (sound : s.Sound) {o written : Object k}
    (done : s.updateStatus o = .ok (written, s')) : Advance s s' := by
  obtain ⟨before, commits⟩ := commits_updateStatus sound done
  exact commits.advance (next_updateStatus done) nofun

theorem advance_delete (sound : s.Sound) (k : Kind) (ns name : String) :
    Advance s (s.delete k ns name).2 := by
  rcases all_or_nothing_delete sound k ns name with same | ⟨-, gone, commits⟩
  · rw [same]
    exact Advance.refl s
  · exact commits.advance (next_delete s k ns name) nofun

/-! ## One write after the other -/

/-- One store becomes another by single writes while the clock stands. -/
def Reaches : Store → Store → Prop := Relation.ReflTransGen Advance

namespace Reaches

theorem refl (s : Store) : Reaches s s := Relation.ReflTransGen.refl

theorem single (advance : Advance s s') : Reaches s s' := Relation.ReflTransGen.single advance

theorem trans (first : Reaches s s') (second : Reaches s' s'') : Reaches s s'' :=
  Relation.ReflTransGen.trans first second

theorem sound (reaches : Reaches s s') (sound : s.Sound) : s'.Sound := by
  induction reaches with
  | refl => exact sound
  | tail _ advance ih => exact ih.next advance.next

theorem clock (reaches : Reaches s s') : s'.clock = s.clock := by
  induction reaches with
  | refl => rfl
  | tail _ advance ih => exact advance.clock.trans ih

/-- The feed tells of every write. -/
theorem history (reaches : Reaches s s') (sound : s.Sound) :
    ∃ events, s'.feed = s.feed ++ events ∧ History s events s' := by
  induction reaches with
  | refl => exact ⟨[], (List.append_nil _).symm, .nil s⟩
  | tail earlier advance ih =>
      obtain ⟨events, told, history⟩ := ih
      obtain ⟨more, told', history'⟩ := advance.next.history (Reaches.sound earlier sound)
      refine ⟨events ++ more, ?_, history.trans history'⟩
      rw [told', told, List.append_assoc]

end Reaches

/-- A write leaves the birth of what was there, unless it deletes it. -/
theorem Next.sameBirth (next : s.Next s') (sound : s.Sound) {o o' : Object k}
    (was : s.getByKey k key = some o) (is_ : s'.getByKey k key = some o') : SameBirth o o' := by
  obtain ⟨events, -, history⟩ := next.history sound
  have stays {j : Kind} {other : String} {before after : Option (Object j)} {change : Change}
      (commits : s.Commits j other before change after s')
      (free : change = .created → before = none) : SameBirth o o' := by
    have kept : k = j → key = other → change ≠ .created := by
      rintro rfl rfl made
      rw [commits.was, free made] at was
      cases was
    obtain ⟨x, there, birth⟩ := commits.sameBirth is_ kept
    rwa [Option.some.inj (was.symm.trans there)]
  cases next with
  | same =>
      rw [Option.some.inj (was.symm.trans is_)]
      exact SameBirth.refl o'
  | later clock =>
      rw [Option.some.inj (was.symm.trans is_)]
      exact SameBirth.refl o'
  | created free => exact stays (commits_created free) fun _ => rfl
  | respecified found x => exact stays (commits_written sound .spec found x) nofun
  | @restated k key current found status =>
      exact stays (commits_written sound .status found { current with status }) nofun
  | deleted found => exact stays (commits_deleted sound found) nofun

/-- What stands under a key has stood there, or has come at the clock's time. -/
theorem Reaches.sameBirth_or_dated (reaches : Reaches s s') (sound : s.Sound) {o' : Object k}
    (found : s'.getByKey k key = some o') :
    (∃ o, s.getByKey k key = some o ∧ SameBirth o o') ∨ o'.info.createdAt = s.clock := by
  induction reaches generalizing o' with
  | refl => exact .inl ⟨o', found, SameBirth.refl o'⟩
  | @tail mid last earlier advance ih =>
      cases there : mid.getByKey k key with
      | none =>
          have dated := advance.dated k key o' there found
          exact .inr (dated.trans (Reaches.clock earlier))
      | some o =>
          have birth := advance.next.sameBirth (Reaches.sound earlier sound) there found
          rcases ih there with ⟨first, stood, same⟩ | dated
          · exact .inl ⟨first, stood, same.trans birth⟩
          · exact .inr (birth.createdAt.trans dated)

end Store

/-! ## Programs -/

namespace Pass

open Store

variable {ε ε' α β : Type} {k : Kind} {s : Store}

/-- Whatever comes of a program, the store it leaves is reached by single writes at one time. -/
def Proceeds (part : Pass ε α) (s : Store) : Prop :=
  Leads part s (fun _ s' => s.Reaches s') fun _ s' => s.Reaches s'

theorem Proceeds.left {part : Pass ε α} (proceeds : part.Proceeds s) :
    s.Reaches (part.left s) := Leaves.left proceeds

theorem Proceeds.bind {part : Pass ε α} {next : α → Pass ε β} (sound : s.Sound)
    (proceeds : part.Proceeds s) (rest : ∀ a s', s'.Sound → (next a).Proceeds s') :
    Proceeds (part >>= next) s := by
  refine (Leads.mono proceeds (fun _ _ reached => reached) fun _ _ reached => reached).bind ?_
  intro a s' reached
  refine (rest a s' (reached.sound sound)).mono ?_ ?_
  · exact fun _ _ further => reached.trans further
  · exact fun _ _ further => reached.trans further

theorem proceeds_pure (a : α) (s : Store) : Proceeds (pure a : Pass ε α) s := Reaches.refl s

theorem proceeds_throw (e : ε) (s : Store) : Proceeds (throw e : Pass ε α) s := Reaches.refl s

theorem Proceeds.within {part : Pass ε α} (proceeds : part.Proceeds s) (wrap : ε → ε') :
    Proceeds (part.within wrap) s := Leads.within proceeds

theorem Proceeds.map {part : Pass ε α} (proceeds : part.Proceeds s) (f : α → β) :
    Proceeds (f <$> part) s := Leads.map proceeds

theorem proceeds_write {op : Store → Except StoreError (α × Store)}
    (done : ∀ a s', op s = .ok (a, s') → s.Reaches s') : Proceeds (Pass.write op) s :=
  leads_write done fun _ _ => Reaches.refl s

theorem proceeds_create {o : Object k} (undated : o.info.createdAt = 0) :
    Proceeds (Pass.write (·.create o)) s :=
  proceeds_write fun _ _ done => .single (advance_create undated done)

theorem proceeds_updateSpec (sound : s.Sound) (o : Object k) :
    Proceeds (Pass.write (·.updateSpec o)) s :=
  proceeds_write fun _ _ done => .single (advance_updateSpec sound done)

theorem proceeds_updateStatus (sound : s.Sound) (o : Object k) :
    Proceeds (Pass.write (·.updateStatus o)) s :=
  proceeds_write fun _ _ done => .single (advance_updateStatus sound done)

theorem proceeds_delete (sound : s.Sound) (k : Kind) (ns name : String) (f : Bool → α) :
    Proceeds (Pass.write fun s => .ok (f (s.delete k ns name).1, (s.delete k ns name).2)) s :=
  Reaches.single (advance_delete sound k ns name)

/-- What an intent creates has no time of its own. -/
def Undated : Intent k → Prop
  | .create o => o.info.createdAt = 0
  | _ => True

theorem proceeds_edit (sound : s.Sound) {intend : Store → Intent k}
    (undated : Undated (intend s)) : Proceeds (edit intend) s := by
  have performed : Proceeds (Pass.write ((intend s).perform ·)) s := by
    cases intent : intend s with
    | nothing seen =>
        refine proceeds_write fun a s' done => ?_
        cases done
        exact Reaches.refl s
    | create o =>
        rw [intent] at undated
        rw [write_perform_create]
        exact ((proceeds_create undated).within lostRace).map some
    | replaceSpec o =>
        rw [write_perform_replaceSpec]
        exact (proceeds_updateSpec sound o).map some
    | replaceStatus o =>
        rw [write_perform_replaceStatus]
        exact (proceeds_updateStatus sound o).map some
  have whole := performed.bind sound fun o s' _ => proceeds_pure (o, (intend s).writes) s'
  unfold Proceeds Leads
  rw [edit_eq_attempt]
  exact whole

theorem proceeds_apply (sound : s.Sound) {desired : Object k}
    (undated : desired.info.createdAt = 0) : Proceeds (apply desired) s := by
  refine (proceeds_edit sound ?_).map _
  unfold intendApply
  split
  · exact undated
  · split <;> trivial

theorem proceeds_modifySpec (sound : s.Sound) (k : Kind) (ns name : String)
    (f : Object k → Object k) : Proceeds (modifySpec k ns name f) s := by
  refine (proceeds_edit sound ?_).map _
  unfold intendSpec
  split
  · trivial
  · simp only
    split <;> trivial

theorem proceeds_modifyStatus (sound : s.Sound) (k : Kind) (ns name : String)
    (f : Object k → k.Status) : Proceeds (modifyStatus k ns name f) s := by
  refine (proceeds_edit sound ?_).map _
  unfold intendStatus
  split
  · trivial
  · simp only
    split <;> trivial

theorem proceeds_mapM {part : β → Pass ε α} {xs : List β}
    (each : ∀ x ∈ xs, ∀ s, s.Sound → (part x).Proceeds s) (sound : s.Sound) :
    Proceeds (xs.mapM part) s := by
  induction xs generalizing s with
  | nil => exact proceeds_pure [] s
  | cons x xs ih =>
      obtain ⟨here, there⟩ := List.forall_mem_cons.1 each
      rw [List.mapM_cons]
      refine (here s sound).bind sound fun y s₁ sound₁ => ?_
      exact (ih there sound₁).bind sound₁ fun ys s₂ _ => proceeds_pure _ s₂

theorem proceeds_forM {part : β → Pass ε Unit} {xs : List β}
    (each : ∀ x ∈ xs, ∀ s, s.Sound → (part x).Proceeds s) (sound : s.Sound) :
    Proceeds (xs.forM part) s := by
  induction xs generalizing s with
  | nil => exact proceeds_pure () s
  | cons x xs ih =>
      obtain ⟨here, there⟩ := List.forall_mem_cons.1 each
      exact (here s sound).bind sound fun _ s₁ sound₁ => ih there sound₁

end Pass
end Cutover
