/-
# Cutover.Proofs.Control.Interleaving -- a controller among its clients

What happens to a controller happens in small steps that come in any order: clients enqueue
keys, delays run out, the dispatcher receives a key and starts it, passes end.  The end of a
pass is two of these steps, since others may come between: the key leaves the running ones
(`Event.finish`), and later the pass schedules what it asked for and gives its worker back
(`Event.leave`).  An `Activity` is a controller with the passes that are at either side of
that.  An event that cannot happen changes nothing, so every list of events is a run.

Whatever an event is, it does one of four things to the queue, or nothing (`step_handled`), and that is
all most properties need to know of it.

What the controller does in one go are runs of such steps: the end of a pass
(`finish_reaches`), the timers that are due (`fire_reaches`), a dispatch
(`dispatch_reaches`), and with them every rehearsal (`upTo_reaches`).  What holds after every
run holds for all of them.
-/
import Cutover.Rehearsal.Script
import Mathlib.Data.List.Basic

namespace Cutover.Control

set_option autoImplicit false

/-- A pass that is off the running keys and still has its worker: its key, and the delay after
which the key is to run again, if it is to. -/
structure Ending where
  key : String
  delay? : Option Duration
  deriving DecidableEq

namespace Controller

variable (c : Controller)

/-- What a pass that ends with an outcome asks for, unless its key is sent again anyway. -/
def followUp (key : String) (outcome : Outcome) : Ending :=
  ⟨key, if c.queue.isDirty key then none
    else outcome.delay? c.pacing (c.queue.failuresAfter key outcome.isFailure)⟩

/-- The key of a pass leaves the running ones. -/
def settle (key : String) (outcome : Outcome) : Controller :=
  { c with queue := c.queue.finish key outcome.isFailure }

/-- What a pass asks for is scheduled, and its worker is free. -/
def dismiss (now : Nat) (e : Ending) : Controller :=
  let scheduled := match e.delay? with
    | some delay => c.enqueueAfter now e.key delay
    | none => c
  { scheduled with started := scheduled.started.erase e.key }

/-- What receiving a key does, and when. -/
theorem receive?_eq_some {c c' : Controller} (received : c.receive? = some c') :
    ∃ key queue, c.inHand = none ∧ c.queue.receive? = some (key, queue) ∧
      c' = { c with queue, inHand := some key } := by
  simp only [receive?] at received
  split at received
  · rename_i key queue _ empty found
    exact ⟨key, queue, empty, found, (Option.some.inj received).symm⟩
  · cases received

/-- What starting the key in hand does, and when. -/
theorem start?_eq_some {c c' : Controller} {key : String} (started : c.start? = some (key, c')) :
    c.inHand = some key ∧ c.started.length < c.pacing.capacity ∧
      c' = { c with
        queue := c.queue.start key, inHand := none, started := c.started ++ [key] } := by
  simp only [start?] at started
  split at started
  · rename_i held
    split at started
    · rename_i free
      cases started
      exact ⟨held, free, rfl⟩
    · cases started
  · cases started

end Controller

/-- A controller, the keys of the passes under way, and the passes that are ending. -/
structure Activity where
  controller : Controller
  busy : List String
  endings : List Ending

namespace Activity

def fresh (pacing : Pacing) : Activity := ⟨.fresh pacing, [], []⟩

def queue (a : Activity) : WorkQueue := a.controller.queue

inductive Event where
  /-- A client enqueues a key. -/
  | enqueue (key : String)
  /-- A client has a key enqueued after a delay. -/
  | enqueueAfter (now : Nat) (key : String) (delay : Duration)
  /-- A delay has run out, and its key is enqueued. -/
  | fire (timer : Timer)
  /-- The dispatcher takes the next key off the channel. -/
  | receive
  /-- The dispatcher starts the key in its hand. -/
  | start
  /-- The pass of a key ends. -/
  | finish (key : String) (outcome : Outcome)
  /-- A pass that has ended schedules what it asked for and gives its worker back. -/
  | leave (now : Nat) (e : Ending)

def step (a : Activity) : Event → Activity
  | .enqueue key => { a with controller := a.controller.enqueue key }
  | .enqueueAfter now key delay => { a with controller := a.controller.enqueueAfter now key delay }
  | .fire timer =>
      if timer ∈ a.controller.timers then
        { a with controller :=
            { a.controller with timers := a.controller.timers.erase timer }.enqueue timer.key }
      else a
  | .receive =>
      match a.controller.receive? with
      | some c => { a with controller := c }
      | none => a
  | .start =>
      match a.controller.start? with
      | some (key, c) => { a with controller := c, busy := a.busy ++ [key] }
      | none => a
  | .finish key outcome =>
      if key ∈ a.busy then
        { controller := a.controller.settle key outcome
          busy := a.busy.erase key
          endings := a.endings ++ [a.controller.followUp key outcome] }
      else a
  | .leave now e =>
      if e ∈ a.endings then
        { a with controller := a.controller.dismiss now e, endings := a.endings.erase e }
      else a

def run (a : Activity) (es : List Event) : Activity := es.foldl step a

/-- What every event keeps, every run keeps. -/
theorem run_induction {P : Activity → Prop} (keeps : ∀ a e, P a → P (a.step e)) (a : Activity)
    (es : List Event) (start : P a) : P (a.run es) := by
  induction es generalizing a with
  | nil => exact start
  | cons e rest ih => exact ih (a.step e) (keeps a e start)

/-! ## What is enqueued and started along a run -/

/-- The key that an event enqueues, whether a client asked for it or a pass. -/
def enqueued? (a : Activity) : Event → Option String
  | .enqueue key => some key
  | .enqueueAfter _ key delay => if delay.nanos = 0 then some key else none
  | .fire timer => if timer ∈ a.controller.timers then some timer.key else none
  | .leave _ e => if e ∈ a.endings ∧ e.delay? = some ⟨0⟩ then some e.key else none
  | _ => none

/-- The key that an event starts. -/
def started? (a : Activity) : Event → Option String
  | .start => a.controller.start?.map (·.1)
  | _ => none

/-- How a pass of the key ends by an event, if one does. -/
def ended? (key : String) (a : Activity) : Event → Option Outcome
  | .finish other outcome => if other = key ∧ key ∈ a.busy then some outcome else none
  | _ => none

/-- The keys that something is done to along a run. -/
def along (key? : Activity → Event → Option String) : Activity → List Event → List String
  | _, [] => []
  | a, e :: rest => (key? a e).toList ++ along key? (a.step e) rest

/-! ## What an event does to the queue -/

theorem queue_enqueueAfter (c : Controller) (now : Nat) (key : String) (delay : Duration) :
    (c.enqueueAfter now key delay).queue =
      if delay.nanos = 0 then c.queue.enqueue key else c.queue := by
  rw [Controller.enqueueAfter]
  split <;> rfl

/-- An event neither starts a key nor ends a pass. -/
structure Bystander (a : Activity) (e : Event) : Prop where
  unstarted : started? a e = none
  unended : ∀ key, ended? key a e = none

/-- What has become of the queue after an event. -/
inductive Handled (a : Activity) : Event → WorkQueue → Prop
  | untouched {e : Event} (none_ : enqueued? a e = none) (aside : Bystander a e) :
      Handled a e a.queue
  | enqueued {e : Event} {key : String} (names : enqueued? a e = some key)
      (aside : Bystander a e) : Handled a e (a.queue.enqueue key)
  | received {key : String} {q : WorkQueue} (found : a.queue.receive? = some (key, q)) :
      Handled a .receive q
  | started {key : String} (begins : started? a .start = some key)
      (held : a.controller.inHand = some key) : Handled a .start (a.queue.start key)
  | ended {key : String} {outcome : Outcome} (under : key ∈ a.busy) :
      Handled a (.finish key outcome) (a.queue.finish key outcome.isFailure)

/-- Whatever is told of an event, it does to the queue. -/
theorem step_handled (a : Activity) (e : Event) : Handled a e (a.step e).queue := by
  -- a key that is to be enqueued after a delay is so at once if there is none
  have delayed {e : Event} {now : Nat} {key : String} {delay : Duration}
      (names : enqueued? a e = if delay.nanos = 0 then some key else none)
      (aside : Bystander a e) : Handled a e (a.controller.enqueueAfter now key delay).queue := by
    rw [queue_enqueueAfter]
    split at names
    · rename_i atOnce
      rw [if_pos atOnce]
      exact .enqueued names aside
    · rename_i later
      rw [if_neg later]
      exact .untouched names aside
  cases e with
  | enqueue key => exact .enqueued rfl ⟨rfl, fun _ => rfl⟩
  | enqueueAfter now key delay => exact delayed rfl ⟨rfl, fun _ => rfl⟩
  | fire timer =>
      by_cases set : timer ∈ a.controller.timers
      · rw [step, if_pos set]
        exact .enqueued (if_pos set) ⟨rfl, fun _ => rfl⟩
      · rw [step, if_neg set]
        exact .untouched (if_neg set) ⟨rfl, fun _ => rfl⟩
  | receive =>
      rw [step]
      split
      · rename_i received
        obtain ⟨key, queue, -, found, rfl⟩ := Controller.receive?_eq_some received
        exact .received found
      · exact .untouched rfl ⟨rfl, fun _ => rfl⟩
  | start =>
      rw [step]
      split
      · rename_i started
        obtain ⟨held, -, rfl⟩ := Controller.start?_eq_some started
        exact .started (by simp [started?, started]) held
      · rename_i none_
        exact .untouched rfl ⟨by simp [started?, none_], fun _ => rfl⟩
  | finish key outcome =>
      by_cases under : key ∈ a.busy
      · rw [step, if_pos under]
        exact .ended under
      · rw [step, if_neg under]
        refine .untouched rfl ⟨rfl, fun other => if_neg ?_⟩
        rintro ⟨rfl, busy⟩
        exact under busy
  | leave now e =>
      by_cases leaving : e ∈ a.endings
      · rw [step, if_pos leaving]
        rcases e with ⟨key, _ | delay⟩
        · exact .untouched (if_neg (by simp)) ⟨rfl, fun _ => rfl⟩
        · have atOnce : enqueued? a (.leave now ⟨key, some delay⟩) =
              if delay.nanos = 0 then some key else none := by
            simp [enqueued?, leaving, Duration.eq_zero_iff]
          exact delayed atOnce ⟨rfl, fun _ => rfl⟩
      · rw [step, if_neg leaving]
        exact .untouched (if_neg fun h => leaving h.1) ⟨rfl, fun _ => rfl⟩

/-! ## What a controller does in one go -/

/-- One state of affairs may follow another. -/
def Reaches (a b : Activity) : Prop := ∃ es, a.run es = b

theorem Reaches.refl (a : Activity) : Reaches a a := ⟨[], rfl⟩

theorem Reaches.trans {a b c : Activity} (first : Reaches a b) (second : Reaches b c) :
    Reaches a c := by
  obtain ⟨es, rfl⟩ := first
  obtain ⟨es', rfl⟩ := second
  exact ⟨es ++ es', List.foldl_append⟩

theorem step_reaches (a : Activity) (e : Event) : Reaches a (a.step e) := ⟨[e], rfl⟩

/-- A controller at rest between passes: its running passes are those it has started. -/
def between (c : Controller) : Activity := ⟨c, c.started, []⟩

theorem enqueue_reaches (c : Controller) (keys : List String) :
    Reaches (between c) (between (keys.foldl Controller.enqueue c)) := by
  induction keys generalizing c with
  | nil => exact Reaches.refl _
  | cons key keys ih => exact (step_reaches _ (.enqueue key)).trans (ih (c.enqueue key))

theorem started_enqueueAfter (c : Controller) (now : Nat) (key : String) (delay : Duration) :
    (c.enqueueAfter now key delay).started = c.started := by
  unfold Controller.enqueueAfter
  split <;> rfl

/-- The end of a pass in one go is its two steps one after the other. -/
theorem finish_eq (c : Controller) (now : Nat) (key : String) (outcome : Outcome) :
    c.finish now key outcome = (c.settle key outcome).dismiss now (c.followUp key outcome) := by
  simp only [Controller.finish, Controller.settle, Controller.dismiss, Controller.followUp]
  generalize outcome.delay? c.pacing (c.queue.failuresAfter key outcome.isFailure) = delay?
  rcases delay? with _ | delay
  · simp
  · cases c.queue.isDirty key with
    | true => rfl
    | false =>
        simp only [Bool.false_eq_true, if_false, Controller.enqueueAfter]
        split <;> rfl

/-- The end of a pass gives its worker back. -/
theorem started_finish (c : Controller) (now : Nat) (key : String) (outcome : Outcome) :
    (c.finish now key outcome).started = c.started.erase key := by
  rw [finish_eq]
  show (Controller.dismiss _ now _).started = _
  unfold Controller.dismiss
  simp only
  split
  · rw [started_enqueueAfter]
    rfl
  · rfl

theorem finish_reaches {c : Controller} {key : String} (under : key ∈ c.started) (now : Nat)
    (outcome : Outcome) : Reaches (between c) (between (c.finish now key outcome)) := by
  let e := c.followUp key outcome
  have ended : (between c).step (.finish key outcome) =
      ⟨c.settle key outcome, c.started.erase key, [e]⟩ := by
    simp [step, between, under, e]
  have left : Activity.step ⟨c.settle key outcome, c.started.erase key, [e]⟩ (.leave now e) =
      between (c.finish now key outcome) := by
    simp only [step, List.mem_singleton, if_true, between, started_finish]
    rw [finish_eq]
    simp [e]
  have first := step_reaches (between c) (.finish key outcome)
  rw [ended] at first
  have second := step_reaches ⟨c.settle key outcome, c.started.erase key, [e]⟩ (.leave now e)
  rw [left] at second
  exact first.trans second

/-- Timers that are due fire one after the other. -/
theorem fire_reaches (c : Controller) (now : Nat) : Reaches (between c) (between (c.fire now)) := by
  let due (t : Timer) : Bool := t.due ≤ now
  -- In any order, and from any controller whose due timers these are.
  have each (ts : List Timer) (c : Controller) (perm : ts.Perm (c.timers.filter due)) :
      Reaches (between c) (between (ts.foldl (fun c t => c.enqueue t.key)
        { c with timers := c.timers.filter fun t => !due t })) := by
    induction ts generalizing c with
    | nil =>
        have none_ : c.timers.filter due = [] := List.perm_nil.1 perm.symm
        have all : (c.timers.filter fun t => !due t) = c.timers := by
          refine List.filter_eq_self.2 fun t member => ?_
          simpa using List.filter_eq_nil_iff.1 none_ t member
        rw [all]
        exact Reaches.refl _
    | cons t ts ih =>
        have member : t ∈ c.timers.filter due := perm.mem_iff.1 List.mem_cons_self
        obtain ⟨inside, isDue⟩ := List.mem_filter.1 member
        let c' := { c with timers := c.timers.erase t }.enqueue t.key
        have stepped : (between c).step (.fire t) = between c' := if_pos inside
        have rest : ts.Perm (c'.timers.filter due) := by
          have erased : c'.timers.filter due = (c.timers.filter due).erase t :=
            (List.erase_filter).symm
          rw [erased]
          exact (List.cons_perm_iff_perm_erase.1 perm).2
        have kept : (c'.timers.filter fun t => !due t) = c.timers.filter fun t => !due t := by
          show ((c.timers.erase t).filter _) = _
          rw [← List.erase_filter]
          exact List.erase_of_not_mem fun h => by simpa [isDue] using (List.mem_filter.1 h).2
        have reached := ih c' rest
        rw [kept] at reached
        have first := step_reaches (between c) (.fire t)
        rw [stepped] at first
        exact first.trans reached
  have ordered := List.mergeSort_perm (c.timers.filter due) fun a b => a.due ≤ b.due
  have fired := each _ c ordered
  have late : (c.timers.filter fun t => !due t) = c.timers.filter fun t => decide (now < t.due) := by
    refine List.filter_congr fun t _ => ?_
    simp only [due, ← decide_not, Nat.not_le]
  rw [late] at fired
  exact fired

theorem dispatch_reaches (c : Controller) : Reaches (between c) (between c.dispatch) := by
  unfold Controller.dispatch
  generalize c.queue.channel.length + 1 = bound
  induction bound generalizing c with
  | zero => exact Reaches.refl _
  | succ n ih =>
      have received : Reaches (between c) (between (c.receive?.getD c)) := by
        have stepped := step_reaches (between c) .receive
        cases found : c.receive? with
        | none => exact Reaches.refl _
        | some c' =>
            obtain ⟨key, queue, -, -, rfl⟩ := Controller.receive?_eq_some found
            simp only [step, between, found] at stepped
            exact stepped
      refine received.trans ?_
      simp only [Controller.dispatchUpTo]
      generalize c.receive?.getD c = c
      cases found : c.start? with
      | none => exact Reaches.refl _
      | some next =>
          obtain ⟨key, c'⟩ := next
          obtain ⟨-, -, rfl⟩ := Controller.start?_eq_some found
          have stepped := step_reaches (between c) .start
          simp only [step, between, found] at stepped
          exact stepped.trans (ih _)

/-! ## Rehearsals -/

theorem started_foldl_enqueue (keys : List String) (c : Controller) :
    (keys.foldl Controller.enqueue c).started = c.started := by
  induction keys generalizing c with
  | nil => rfl
  | cons key keys ih => exact ih (c.enqueue key)

theorem end_reaches (r : Rehearsal.Run) {key : String} (under : key ∈ r.controller.started) :
    Reaches (between r.controller) (between (r.finish key).controller) := by
  refine (enqueue_reaches _ _).trans (finish_reaches ?_ _ _)
  rw [started_foldl_enqueue]
  exact under

/-- A scripted pass runs between its dispatch and its end. -/
theorem pass_reaches {r r' : Rehearsal.Run} (ran : r.pass? = some r') :
    Reaches (between r.controller) (between r'.controller) := by
  simp only [Rehearsal.Run.pass?, Option.map_eq_some_iff] at ran
  obtain ⟨key, head, rfl⟩ := ran
  let dispatched := { r with controller := r.controller.dispatch }
  have under : key ∈ dispatched.controller.started := List.mem_of_mem_head? head
  exact (dispatch_reaches r.controller).trans (end_reaches dispatched under)

theorem settle_reaches (n : Nat) (r : Rehearsal.Run) :
    Reaches (between r.controller) (between (r.settleWithin n).controller) := by
  induction n generalizing r with
  | zero => exact Reaches.refl _
  | succ n ih =>
      rw [Rehearsal.Run.settleWithin]
      cases ran : r.pass? with
      | none => exact Reaches.refl _
      | some r' => exact (pass_reaches ran).trans (ih r')

/-- At one moment keys are enqueued, timers fire and passes run. -/
theorem moment_reaches (r : Rehearsal.Run) (now : Nat) (keys : List String) (bound : Nat) :
    Reaches (between r.controller) (between (r.moment now keys bound).controller) := by
  have triggered := enqueue_reaches r.controller keys
  have fired := fire_reaches (keys.foldl Controller.enqueue r.controller) now
  have settled := settle_reaches bound
    { r with controller := (keys.foldl Controller.enqueue r.controller).fire now, now }
  exact (triggered.trans fired).trans settled

theorem advance_reaches (bound horizon n : Nat) (triggers : List Timer) (r : Rehearsal.Run) :
    Reaches (between r.controller)
      (between (r.advanceWithin bound horizon n triggers).controller) := by
  induction n generalizing triggers r with
  | zero => exact Reaches.refl _
  | succ n ih =>
      rw [Rehearsal.Run.advanceWithin]
      cases r.nextDue? triggers with
      | none => exact Reaches.refl _
      | some now =>
          simp only
          split
          · exact (moment_reaches r now _ bound).trans (ih _ _)
          · exact Reaches.refl _

/-- A rehearsal is a run of a fresh controller. -/
theorem upTo_reaches (horizon : Nat) (pacing : Pacing) (script : Rehearsal.Script)
    (triggers : List Timer) :
    Reaches (fresh pacing)
      (between (Rehearsal.Run.upTo horizon pacing script triggers).controller) :=
  (advance_reaches _ horizon _ triggers (.fresh pacing script)).trans (enqueue_reaches _ _)

end Activity

end Cutover.Control
