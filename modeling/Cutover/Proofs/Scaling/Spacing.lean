/-
# Cutover.Proofs.Scaling.Spacing -- the moves of an autoscaler are bounded, apart and its own

A scaler is asked about one autoscaler after the other, in any order and at any times, and answers
with a new count or with nothing.  How the ratio of the utilisations is rounded plays no part in
what is proved here: `answerBy` takes any arithmetic, and with the program's own it is `evaluate`
(`evaluate_eq_answerBy`).

All that an answer can be is said once (`answerBy_cases`): nothing, and then the scaler is as it was,
or a move in one `Direction` that has waited for the window of that direction, and then the time of
that move is noted and no other.  So the time noted for a key and a direction only grows while the
window is open (`waited_of_moved`), which keeps any two moves apart; and an answer looks at
nothing but what is noted for its own key (`Alike.answerBy`), so that questions about other keys may
as well not have been put (`trace_filter`).

Moves are apart by the whole seconds of the window.  What it has beyond them is not waited for
(`Sample.second_move_within_window`).
-/
import Cutover.Scaling.Decision
import Mathlib.Data.List.Basic

namespace Cutover

set_option autoImplicit false

/-! ## Directions -/

/-- More instances or fewer. -/
inductive Direction where
  | up
  | down
  deriving DecidableEq

namespace Direction

/-- The time that a scaler is to let pass between two moves in a direction. -/
def window (s : Scaler) : Direction → Duration
  | up => s.upWindow
  | down => s.downWindow

/-- The time of the last move in a direction. -/
def last (t : ScaleTimes) : Direction → Nat
  | up => t.up
  | down => t.down

/-- The times once there has been a move in a direction. -/
def note (t : ScaleTimes) (now : Nat) : Direction → ScaleTimes
  | up => { t with up := now }
  | down => { t with down := now }

/-- From the first count to the second it is a move in the direction. -/
def Leads (m n : Nat) : Direction → Prop
  | up => m < n
  | down => n < m

@[simp] theorem last_note_self (t : ScaleTimes) (now : Nat) (dir : Direction) :
    dir.last (dir.note t now) = now := by cases dir <;> rfl

theorem last_note_of_ne (t : ScaleTimes) (now : Nat) {dir other : Direction} (ne : other ≠ dir) :
    other.last (dir.note t now) = other.last t := by
  cases dir <;> cases other <;> first | rfl | exact absurd rfl ne

theorem Leads.ne {m n : Nat} {dir : Direction} (leads : dir.Leads m n) : n ≠ m := by
  cases dir with
  | up => exact Nat.ne_of_gt leads
  | down => exact Nat.ne_of_lt leads

/-- A move has one direction. -/
theorem Leads.unique {m n : Nat} {dir other : Direction} (leads : dir.Leads m n)
    (leads' : other.Leads m n) : other = dir := by
  cases dir <;> cases other <;> first | rfl | exact absurd leads (Nat.lt_asymm leads')

end Direction

namespace Scaler

/-! ## One answer -/

/-- What a scaler is asked: an autoscaler, the count of its group, the utilisation that was
measured, if any, and the time. -/
structure Question where
  autoscaler : Autoscaler
  current : Nat
  utilization : Option Nat
  now : Nat

def Question.key (q : Question) : String := q.autoscaler.key

/-- What a scaler has noted for a key. -/
def timesOf (s : Scaler) (key : String) : ScaleTimes := (s.times.get? key).getD default

/-- The scaler once an autoscaler has moved. -/
def stamped (s : Scaler) (dir : Direction) (key : String) (now : Nat) : Scaler :=
  { s with times := s.times.insert key (dir.note (s.timesOf key) now) }

/-- The count wanted, by any arithmetic in place of `scaledCount`. -/
def wantedBy (scaled : Nat → Nat → Nat → Nat) (q : Question) : Nat :=
  let a := q.autoscaler.spec
  let aim := match q.utilization with
    | some u => if a.targetUtilization > 0 then scaled q.current u a.targetUtilization else q.current
    | none => q.current
  min (max aim (lowerBound a)) (upperBound a)

/-- The answer to a question by any arithmetic in place of `scaledCount`, and the scaler after
it. -/
def answerBy (scaled : Nat → Nat → Nat → Nat) (s : Scaler) (q : Question) : Option Nat × Scaler :=
  let n := wantedBy scaled q
  let last := s.timesOf q.key
  if q.current = 0 ∨ n = q.current then (none, s)
  else if q.current < n then
    if q.now - last.up < s.upWindow.seconds then (none, s)
    else (some n, s.stamped .up q.key q.now)
  else
    if q.now - last.down < s.downWindow.seconds then (none, s)
    else (some n, s.stamped .down q.key q.now)

/-- The scaler answers by its own arithmetic. -/
theorem evaluate_eq_answerBy (s : Scaler) (q : Question) :
    s.evaluate q.key q.autoscaler.spec q.current q.utilization q.now = answerBy scaledCount s q :=
  rfl

variable {scaled : Nat → Nat → Nat → Nat} {s t : Scaler} {q : Question} {dir : Direction}
  {key : String}

theorem wantedBy_bounds (scaled : Nat → Nat → Nat → Nat) (q : Question) :
    lowerBound q.autoscaler.spec ≤ wantedBy scaled q ∧
      wantedBy scaled q ≤ upperBound q.autoscaler.spec := by
  have ordered : lowerBound q.autoscaler.spec ≤ upperBound q.autoscaler.spec := Nat.le_max_right ..
  exact ⟨Nat.le_min.2 ⟨Nat.le_max_right .., ordered⟩, Nat.min_le_right ..⟩

/-- The scaler has moved an autoscaler in a direction, for which it has waited long enough. -/
structure Moves (scaled : Nat → Nat → Nat → Nat) (s : Scaler) (q : Question) (dir : Direction) :
    Prop where
  running : q.current ≠ 0
  leads : dir.Leads q.current (wantedBy scaled q)
  waited : (dir.window s).seconds ≤ q.now - dir.last (s.timesOf q.key)
  answer : answerBy scaled s q = (some (wantedBy scaled q), s.stamped dir q.key q.now)

/-- **One answer.**  Nothing happens, or the autoscaler moves in one direction. -/
theorem answerBy_cases (scaled : Nat → Nat → Nat → Nat) (s : Scaler) (q : Question) :
    answerBy scaled s q = (none, s) ∨ ∃ dir, Moves scaled s q dir := by
  by_cases still : q.current = 0 ∨ wantedBy scaled q = q.current
  · exact .inl (if_pos still)
  have opened : answerBy scaled s q = if q.current < wantedBy scaled q then
      if q.now - (s.timesOf q.key).up < s.upWindow.seconds then (none, s)
      else (some (wantedBy scaled q), s.stamped .up q.key q.now)
    else if q.now - (s.timesOf q.key).down < s.downWindow.seconds then (none, s)
      else (some (wantedBy scaled q), s.stamped .down q.key q.now) := if_neg still
  obtain ⟨running, ne⟩ := not_or.1 still
  by_cases more : q.current < wantedBy scaled q
  · rw [if_pos more] at opened
    by_cases early : q.now - (s.timesOf q.key).up < s.upWindow.seconds
    · exact .inl (opened.trans (if_pos early))
    · exact .inr ⟨.up, running, more, Nat.not_lt.1 early, opened.trans (if_neg early)⟩
  · rw [if_neg more] at opened
    by_cases early : q.now - (s.timesOf q.key).down < s.downWindow.seconds
    · exact .inl (opened.trans (if_pos early))
    · have fewer : wantedBy scaled q < q.current := Nat.lt_of_le_of_ne (Nat.not_lt.1 more) ne
      exact .inr ⟨.down, running, fewer, Nat.not_lt.1 early, opened.trans (if_neg early)⟩

/-! ## What an answer notes -/

theorem timesOf_stamped_self (s : Scaler) (dir : Direction) (key : String) (now : Nat) :
    (s.stamped dir key now).timesOf key = dir.note (s.timesOf key) now := by
  unfold timesOf stamped
  rw [Dict.get?_insert_self]
  rfl

theorem timesOf_stamped_of_ne (s : Scaler) (dir : Direction) {key other : String} (now : Nat)
    (ne : other ≠ key) : (s.stamped dir key now).timesOf other = s.timesOf other := by
  unfold timesOf stamped
  rw [Dict.get?_insert_of_ne _ _ ne]

theorem window_answerBy (scaled : Nat → Nat → Nat → Nat) (s : Scaler) (q : Question)
    (dir : Direction) : dir.window (answerBy scaled s q).2 = dir.window s := by
  obtain still | ⟨other, moves⟩ := answerBy_cases scaled s q
  · rw [still]
  · rw [moves.answer]
    cases dir <;> rfl

/-- The time that is noted for a key and a direction is that of the question, if this has moved the
autoscaler in that direction, and else the one from before. -/
theorem last_answerBy (scaled : Nat → Nat → Nat → Nat) (s : Scaler) (q : Question)
    (dir : Direction) (key : String) :
    q.key = key ∧ Moves scaled s q dir ∧
      dir.last ((answerBy scaled s q).2.timesOf key) = q.now ∨
    ¬ (q.key = key ∧ Moves scaled s q dir) ∧
      dir.last ((answerBy scaled s q).2.timesOf key) = dir.last (s.timesOf key) := by
  obtain still | ⟨other, moves⟩ := answerBy_cases scaled s q
  · refine .inr ⟨?_, by rw [still]⟩
    rintro ⟨-, moves⟩
    cases still.symm.trans moves.answer
  · rw [moves.answer]
    by_cases here : q.key = key
    · subst here
      rw [timesOf_stamped_self]
      by_cases same : dir = other
      · subst same
        exact .inl ⟨rfl, moves, Direction.last_note_self ..⟩
      · refine .inr ⟨fun both => same (moves.leads.unique both.2.leads), ?_⟩
        exact Direction.last_note_of_ne _ _ same
    · refine .inr ⟨fun both => here both.1, ?_⟩
      rw [timesOf_stamped_of_ne _ _ _ (Ne.symm here)]

/-! ## Questions one after the other -/

/-- The questions put to a scaler one after the other, each with its answer. -/
def trace (scaled : Nat → Nat → Nat → Nat) : Scaler → List Question → List (Question × Option Nat)
  | _, [] => []
  | s, q :: qs => (q, (answerBy scaled s q).1) :: trace scaled (answerBy scaled s q).2 qs

/-- The scaler once it has answered some questions. -/
def asked (scaled : Nat → Nat → Nat → Nat) (s : Scaler) (qs : List Question) : Scaler :=
  qs.foldl (fun s q => (answerBy scaled s q).2) s

/-- The answer is a move in the direction. -/
def Moved (dir : Direction) (x : Question × Option Nat) : Prop :=
  ∃ n, x.2 = some n ∧ dir.Leads x.1.current n

theorem moves_of_moved (moved : Moved dir (q, (answerBy scaled s q).1)) : Moves scaled s q dir := by
  obtain ⟨n, answered, leads⟩ := moved
  obtain still | ⟨other, moves⟩ := answerBy_cases scaled s q
  · rw [still] at answered
    cases answered
  · rw [moves.answer] at answered
    cases answered
    obtain rfl := moves.leads.unique leads
    exact moves

/-- What an answer may be holds of all answers of a run. -/
theorem forall_mem_trace {P : Question × Option Nat → Prop}
    (each : ∀ s q, P (q, (answerBy scaled s q).1)) (qs : List Question) :
    ∀ x ∈ trace scaled s qs, P x := by
  induction qs generalizing s with
  | nil => exact fun _ member => absurd member List.not_mem_nil
  | cons q qs ih => exact List.forall_mem_cons.2 ⟨each s q, ih⟩

/-! ## Moves are apart -/

/-- A move has waited since the time that was noted before the run, whatever has come in
between: moves in its direction have waited themselves, and nothing else touches that time. -/
theorem waited_of_moved {qs : List Question} {x : Question × Option Nat}
    (member : x ∈ trace scaled s qs) (moved : Moved dir x) :
    (dir.window s).seconds ≤ x.1.now - dir.last (s.timesOf x.1.key) := by
  induction qs generalizing s with
  | nil => cases member
  | cons q qs ih =>
      rcases List.mem_cons.1 member with rfl | later
      · exact (moves_of_moved moved).waited
      · have waited := ih later
        rw [window_answerBy] at waited
        rcases last_answerBy scaled s q dir x.1.key with ⟨here, moves, noted⟩ | ⟨-, kept⟩
        -- the two waits add up, the window being open in between or not
        · have before := moves.waited
          rw [here] at before
          rw [noted] at waited
          omega
        · rwa [kept] at waited

theorem spaced (scaled : Nat → Nat → Nat → Nat) (s : Scaler) (dir : Direction)
    (qs : List Question) : (trace scaled s qs).Pairwise fun x y =>
      x.1.key = y.1.key → Moved dir x → Moved dir y → (dir.window s).seconds ≤ y.1.now - x.1.now := by
  induction qs generalizing s with
  | nil => exact List.Pairwise.nil
  | cons q qs ih =>
      have rest := ih (answerBy scaled s q).2
      rw [window_answerBy] at rest
      refine List.pairwise_cons.2 ⟨fun y later same first second => ?_, rest⟩
      have waited := waited_of_moved later second
      have moves := moves_of_moved first
      rcases last_answerBy scaled s q dir y.1.key with ⟨-, -, noted⟩ | ⟨other, -⟩
      · rwa [window_answerBy, noted] at waited
      · exact absurd ⟨same, moves⟩ other

/-! ## Keys are on their own -/

/-- Two scalers know the same of a key, and wait as long. -/
structure Alike (key : String) (s t : Scaler) : Prop where
  up : s.upWindow = t.upWindow
  down : s.downWindow = t.downWindow
  times : s.timesOf key = t.timesOf key

/-- An answer depends on nothing but what is known of its key. -/
theorem Alike.answerBy_fst (alike : Alike q.key s t) :
    (answerBy scaled s q).1 = (answerBy scaled t q).1 := by
  unfold answerBy
  simp only [alike.up, alike.down, alike.times]
  split_ifs <;> rfl

theorem Alike.answerBy (alike : Alike q.key s t) :
    Alike q.key (answerBy scaled s q).2 (answerBy scaled t q).2 := by
  have noted (dir : Direction) : Alike q.key (s.stamped dir q.key q.now) (t.stamped dir q.key q.now) :=
    ⟨alike.up, alike.down, by rw [timesOf_stamped_self, timesOf_stamped_self, alike.times]⟩
  unfold Scaler.answerBy
  simp only [alike.up, alike.down, alike.times]
  split_ifs
  · exact alike
  · exact alike
  · exact noted .up
  · exact alike
  · exact noted .down

/-- A question about another key changes nothing for this one. -/
theorem Alike.of_other (alike : Alike key s t) (other : q.key ≠ key) :
    Alike key (Scaler.answerBy scaled s q).2 t := by
  obtain still | ⟨dir, moves⟩ := answerBy_cases scaled s q
  · rwa [still]
  · rw [moves.answer]
    exact ⟨alike.up, alike.down, (timesOf_stamped_of_ne _ _ _ (Ne.symm other)).trans alike.times⟩

theorem trace_filter_of_alike (alike : Alike key s t) (qs : List Question) :
    (trace scaled s qs).filter (fun x => x.1.key = key) =
      trace scaled t (qs.filter fun q => q.key = key) := by
  induction qs generalizing s t with
  | nil => rfl
  | cons q qs ih =>
      by_cases here : q.key = key
      · subst here
        rw [List.filter_cons_of_pos (by simp), trace, trace, List.filter_cons_of_pos (by simp),
          alike.answerBy_fst, ih alike.answerBy]
      · rw [List.filter_cons_of_neg (by simpa using here), trace,
          List.filter_cons_of_neg (by simpa using here)]
        exact ih (alike.of_other here)

theorem trace_filter (scaled : Nat → Nat → Nat → Nat) (s : Scaler) (key : String)
    (qs : List Question) : (trace scaled s qs).filter (fun x => x.1.key = key) =
      trace scaled s (qs.filter fun q => q.key = key) :=
  trace_filter_of_alike ⟨rfl, rfl, rfl⟩ qs

/-! ## All of it -/

/-- **The decisions of a scaler.**  By whatever arithmetic, whatever it is asked and in whatever
order: a new count is within the bounds of its autoscaler, is not the current one and is never
given to a group of no instances; two moves of one autoscaler in one direction are at least the
whole seconds of that direction's window apart; no answer leaves all times as they were; and the answers about one
autoscaler are those it would get if there were no other. -/
theorem decisions_bounded_spaced_and_independent (scaled : Nat → Nat → Nat → Nat) (s : Scaler)
    (qs : List Question) :
    (∀ q, answerBy scaledCount s q =
      s.evaluate q.key q.autoscaler.spec q.current q.utilization q.now) ∧
    (∀ x ∈ trace scaled s qs, ∀ n, x.2 = some n →
      max 1 x.1.autoscaler.spec.minReplicas ≤ n ∧
      n ≤ max x.1.autoscaler.spec.maxReplicas (max 1 x.1.autoscaler.spec.minReplicas) ∧
      n ≠ x.1.current ∧ x.1.current ≠ 0) ∧
    (∀ dir : Direction, (trace scaled s qs).Pairwise fun x y =>
      x.1.key = y.1.key → Moved dir x → Moved dir y → (dir.window s).seconds ≤ y.1.now - x.1.now) ∧
    (∀ before q, (answerBy scaled (s.asked scaled before) q).1 = none →
      (answerBy scaled (s.asked scaled before) q).2 = s.asked scaled before) ∧
    ∀ key, (trace scaled s qs).filter (fun x => x.1.key = key) =
      trace scaled s (qs.filter fun q => q.key = key) := by
  refine ⟨fun q => (evaluate_eq_answerBy s q).symm, ?_, fun dir => spaced scaled s dir qs, ?_,
    fun key => trace_filter scaled s key qs⟩
  · refine forall_mem_trace (fun s q n answered => ?_) qs
    obtain still | ⟨dir, moves⟩ := answerBy_cases scaled s q
    · rw [still] at answered
      cases answered
    · rw [moves.answer] at answered
      cases answered
      obtain ⟨least, most⟩ := wantedBy_bounds scaled q
      unfold upperBound at most
      unfold lowerBound at least most
      rw [Nat.max_comm 1]
      exact ⟨least, most, moves.leads.ne, moves.running⟩
  · intro before q nothing
    obtain still | ⟨dir, moves⟩ := answerBy_cases scaled (s.asked scaled before) q
    · rw [still]
    · rw [moves.answer] at nothing
      cases nothing

namespace Sample

/-- The exact quotient, rounded up. -/
def exactly (current utilization target : Nat) : Nat := (current * utilization + target - 1) / target

def ask (app : String) (current utilization now : Nat) : Question where
  autoscaler :=
    { info := Meta.fresh "prod" (app ++ "-scaler"), spec := ⟨app, 0, 10, 50⟩, status := default }
  current
  utilization := some utilization
  now

/-- Two applications in turns.  The first one's second move up comes too early, and moves down
have a window of their own. -/
def questions : List Question :=
  [ask "web" 2 100 1000, ask "api" 3 100 1010, ask "web" 4 100 1030, ask "web" 4 25 1040,
    ask "api" 0 100 1050, ask "web" 2 100 1060]

theorem web_and_api_apart :
    (trace exactly (fresh 60 300) questions).map (·.2) =
      [some 4, some 6, none, some 2, none, some 4] ∧
    ((trace exactly (fresh 60 300) questions).filter fun x => x.1.key = "prod/web-scaler") =
      trace exactly (fresh 60 300) (questions.filter fun q => q.key = "prod/web-scaler") ∧
    (trace exactly (fresh 60 300) questions).Pairwise fun x y =>
      x.1.key = y.1.key → Moved .up x → Moved .up y → 60 ≤ y.1.now - x.1.now := by
  obtain ⟨-, -, apart, -, alone⟩ :=
    decisions_bounded_spaced_and_independent exactly (fresh 60 300) questions
  exact ⟨by decide, alone _, apart .up⟩

/-- Of a window of one and a half seconds a second is waited for. -/
theorem second_move_within_window : ∃ x y,
    trace exactly (withWindows (.ofMillis 1500) (.ofSeconds 0))
      [ask "web" 2 100 10, ask "web" 4 100 11] = [x, y] ∧
    x.1.key = y.1.key ∧ Moved .up x ∧ Moved .up y ∧
    (Duration.ofSeconds (y.1.now - x.1.now)).nanos < (Duration.ofMillis 1500).nanos := by
  have first : Direction.up.Leads 2 4 := show 2 < 4 by decide
  have second : Direction.up.Leads 4 8 := show 4 < 8 by decide
  exact ⟨(ask "web" 2 100 10, some 4), (ask "web" 4 100 11, some 8), rfl, rfl, ⟨4, rfl, first⟩,
    ⟨8, rfl, second⟩, by decide⟩

end Sample

end Scaler
end Cutover
