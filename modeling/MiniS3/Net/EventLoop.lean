import Mathlib
import MiniS3.Lib.Transition

/-!
# Posted tasks of an event loop

Any thread can post a task to the loop, which runs it between two calls of `epoll_wait`.  The
queue is shared under a mutex, and an eventfd that the loop waits for tells of new tasks.  The
thread of the loop itself posts from the callbacks and tasks that it runs, and before and between
its calls of `Loop`.  Outside of tasks it does not write to the eventfd: that is right for a
callback, since the queue is emptied before the loop waits again, but a task that is posted before
`Loop` is called sleeps with the loop in `epoll_wait`.

Locked sections, reads and writes of the eventfd, and the start and the end of a callback or a
task are single steps here, and come in any order that the program text of each thread allows.
-/

namespace MiniS3.Net

open Lib.Transition

universe u

/-- Where the thread of the loop is: outside of `Loop`, before `epoll_wait`, among the events
that it returned (and whether the one of the notifier is still among them), before the swap of
`DoPendingFunctors`, between two tasks, or in a task. -/
inductive LoopPhase
  | stopped
  | waiting
  | dispatching (notified : Bool)
  | entering
  | draining
  | inTask
  deriving DecidableEq

namespace LoopPhase

/-- The thread is in `DoPendingFunctors`. -/
def calling : LoopPhase → Bool
  | entering => true
  | draining => true
  | inTask => true
  | _ => false

/-- The thread comes to `epoll_wait` before it comes to the next swap. -/
def waitsFirst : LoopPhase → Bool
  | stopped => true
  | waiting => true
  | draining => true
  | inTask => true
  | _ => false

/-- The thread is in code that can post: outside of `Loop`, in a callback or in a task. -/
def posts : LoopPhase → Bool
  | stopped => true
  | dispatching _ => true
  | inTask => true
  | _ => false

theorem eq_inTask {phase : LoopPhase} (posting : phase.posts = true)
    (calling : phase.calling = true) : phase = inTask := by
  cases phase with
  | inTask => rfl
  | entering => cases posting
  | draining => cases posting
  | stopped => cases calling
  | waiting => cases calling
  | dispatching notified => cases calling

theorem eq_stopped {phase : LoopPhase} (posting : phase.posts = true)
    (calling : phase.calling = false) (first : phase.waitsFirst = true) : phase = stopped := by
  cases phase with
  | stopped => rfl
  | waiting => cases posting
  | dispatching notified => cases first
  | entering => cases posting
  | draining => cases posting
  | inTask => cases calling

end LoopPhase

/-- `EventLoop` with its notifier and the threads that post to it.  Tasks are known by the number
of pushes before theirs. -/
structure LoopState (τ : Type u) where
  phase : LoopPhase
  /-- `calling_pending_functors_`. -/
  callingPendingFunctors : Bool
  /-- `pending_functors_`. -/
  pendingFunctors : List Nat
  /-- The tasks of `functors` that have not been started. -/
  batch : List Nat
  /-- The tasks that were started. -/
  ran : List Nat
  posted : Nat
  /-- The value of the eventfd. -/
  counter : Nat
  /-- The task that the thread of the loop pushed last, while its `Wakeup` is still to come. -/
  own : Option Nat
  /-- The same for the other threads. -/
  others : τ → Option Nat

namespace LoopState

variable {τ : Type u}

/-- A new event loop. -/
def initial : LoopState τ where
  phase := .stopped
  callingPendingFunctors := false
  pendingFunctors := []
  batch := []
  ran := []
  posted := 0
  counter := 0
  own := none
  others := fun _ => none

/-- The locked section of `QueueInLoop`. -/
def push (state : LoopState τ) : LoopState τ :=
  { state with
    pendingFunctors := state.pendingFunctors ++ [state.posted]
    posted := state.posted + 1 }

/-- The condition in `QueueInLoop` for a `Wakeup`. -/
def needsWakeup (isInLoopThread : Bool) (state : LoopState τ) : Bool :=
  !isInLoopThread || state.callingPendingFunctors

/-- `Notify`: the value of an eventfd that is as large as can be stays as it is. -/
def notify (state : LoopState τ) : LoopState τ :=
  { state with counter := if state.counter < 2 ^ 64 - 2 then state.counter + 1 else state.counter }

/-- A step of a thread. -/
inductive Action (τ : Type u)
  /-- Another thread pushes a task, in `QueueInLoop` or `RunInLoop`. -/
  | push (thread : τ)
  /-- Another thread performs its `Wakeup`, after a push or for `Quit`. -/
  | wakeup (thread : τ)
  /-- The thread of the loop calls `Loop`. -/
  | start
  /-- `epoll_wait` returns, and may do so without the event of the notifier. -/
  | wait (notified : Bool)
  /-- `HandleRead` of the notifier. -/
  | handleRead
  /-- The thread of the loop pushes a task, in a callback, in a task or outside of `Loop`.  What
  it gives to `RunInLoop` is run at once. -/
  | post
  /-- The thread of the loop performs its `Wakeup`. -/
  | postWakeup
  /-- All events are handled, and `DoPendingFunctors` sets its flag. -/
  | enter
  | swap
  | call
  | finish
  /-- `DoPendingFunctors` is over, and `quit_` is read. -/
  | leave (quit : Bool)

variable [DecidableEq τ]

def next : Step (LoopState τ) (Action τ) := fun state action =>
  match action with
  | .push thread =>
      if state.others thread = none then
        some { state.push with
          others := Function.update state.others thread
            (if state.needsWakeup false then some state.posted else none) }
      else none
  | .wakeup thread => some { state.notify with others := Function.update state.others thread none }
  | .start => if state.phase = .stopped then some { state with phase := .waiting } else none
  | .wait notified =>
      if state.phase = .waiting ∧ (notified → 0 < state.counter) then
        some { state with phase := .dispatching notified }
      else none
  | .handleRead =>
      if state.phase = .dispatching true ∧ state.own = none then
        some { state with phase := .dispatching false, counter := 0 }
      else none
  | .post =>
      if state.phase.posts ∧ state.own = none then
        some { state.push with
          own := if state.needsWakeup true then some state.posted else none }
      else none
  | .postWakeup => if state.phase.posts then some { state.notify with own := none } else none
  | .enter =>
      if state.phase = .dispatching false ∧ state.own = none then
        some { state with phase := .entering, callingPendingFunctors := true }
      else none
  | .swap =>
      if state.phase = .entering then
        some { state with phase := .draining, batch := state.pendingFunctors, pendingFunctors := [] }
      else none
  | .call =>
      match state.phase, state.batch with
      | .draining, task :: rest =>
          some { state with phase := .inTask, batch := rest, ran := state.ran ++ [task] }
      | _, _ => none
  | .finish =>
      if state.phase = .inTask ∧ state.own = none then some { state with phase := .draining }
      else none
  | .leave quit =>
      if state.phase = .draining ∧ state.batch = [] then
        some { state with
          phase := if quit then .stopped else .waiting
          callingPendingFunctors := false }
      else none

/-! ## What is kept of the tasks -/

/-- Tasks are started in the order of their pushes, the flag tells where the thread of the loop
is, and only a task of the loop can leave a `Wakeup` to come. -/
structure Queued (state : LoopState τ) : Prop where
  order : state.ran ++ state.batch ++ state.pendingFunctors = List.range state.posted
  idle : state.phase ≠ .draining → state.phase ≠ .inTask → state.batch = []
  flag : state.callingPendingFunctors = state.phase.calling
  own : state.phase ≠ .inTask → state.own = none

variable {state after : LoopState τ}

omit [DecidableEq τ] in
/-- A pushed task comes last. -/
theorem Queued.order_push (queued : state.Queued) :
    state.ran ++ state.batch ++ (state.pendingFunctors ++ [state.posted]) =
      List.range (state.posted + 1) := by
  rw [List.range_succ, ← queued.order, List.append_assoc, List.append_assoc, List.append_assoc]

theorem Queued.post (queued : state.Queued) (step : next state .post = some after) :
    after.Queued := by
  rw [next] at step
  split at step
  · rename_i enabled
    cases step
    refine ⟨queued.order_push, queued.idle, queued.flag, fun outside => if_neg ?_⟩
    intro set
    have calling : state.phase.calling = true := queued.flag.symm.trans set
    exact outside (LoopPhase.eq_inTask enabled.1 calling)
  · cases step

theorem Queued.call (queued : state.Queued) (step : next state .call = some after) :
    after.Queued := by
  rw [next] at step
  split at step
  · rename_i task rest draining remains
    cases step
    refine ⟨?_, fun _ outside => absurd rfl outside, ?_, fun outside => absurd rfl outside⟩
    · rw [← queued.order, remains]
      simp
    · exact queued.flag.trans (by rw [draining]; rfl)
  · cases step

theorem Queued.next (queued : state.Queued) {action : Action τ}
    (step : LoopState.next state action = some after) : after.Queued := by
  cases action with
  | post => exact queued.post step
  | call => exact queued.call step
  | push thread =>
      rcases Option.ite_none_right_eq_some.mp step with ⟨_, ⟨⟩⟩
      exact ⟨queued.order_push, queued.idle, queued.flag, queued.own⟩
  | wakeup thread =>
      cases step
      exact ⟨queued.order, queued.idle, queued.flag, queued.own⟩
  | postWakeup =>
      rcases Option.ite_none_right_eq_some.mp step with ⟨_, ⟨⟩⟩
      exact ⟨queued.order, queued.idle, queued.flag, fun _ => rfl⟩
  | start =>
      rcases Option.ite_none_right_eq_some.mp step with ⟨stopped, ⟨⟩⟩
      exact ⟨queued.order, fun _ _ => queued.idle (by simp [stopped]) (by simp [stopped]),
        queued.flag.trans (by rw [stopped]; rfl), fun _ => queued.own (by simp [stopped])⟩
  | wait notified =>
      rcases Option.ite_none_right_eq_some.mp step with ⟨enabled, ⟨⟩⟩
      exact ⟨queued.order, fun _ _ => queued.idle (by simp [enabled.1]) (by simp [enabled.1]),
        queued.flag.trans (by rw [enabled.1]; rfl), fun _ => queued.own (by simp [enabled.1])⟩
  | handleRead =>
      rcases Option.ite_none_right_eq_some.mp step with ⟨enabled, ⟨⟩⟩
      exact ⟨queued.order, fun _ _ => queued.idle (by simp [enabled.1]) (by simp [enabled.1]),
        queued.flag.trans (by rw [enabled.1]; rfl), fun _ => enabled.2⟩
  | enter =>
      rcases Option.ite_none_right_eq_some.mp step with ⟨enabled, ⟨⟩⟩
      exact ⟨queued.order, fun _ _ => queued.idle (by simp [enabled.1]) (by simp [enabled.1]),
        rfl, fun _ => enabled.2⟩
  | swap =>
      rcases Option.ite_none_right_eq_some.mp step with ⟨entering, ⟨⟩⟩
      refine ⟨?_, fun outside => absurd rfl outside, queued.flag.trans (by rw [entering]; rfl),
        fun _ => queued.own (by simp [entering])⟩
      rw [← queued.order, queued.idle (by simp [entering]) (by simp [entering])]
      simp
  | finish =>
      rcases Option.ite_none_right_eq_some.mp step with ⟨enabled, ⟨⟩⟩
      exact ⟨queued.order, fun outside => absurd rfl outside,
        queued.flag.trans (by rw [enabled.1]; rfl), fun _ => enabled.2⟩
  | leave quit =>
      rcases Option.ite_none_right_eq_some.mp step with ⟨enabled, ⟨⟩⟩
      refine ⟨queued.order, fun _ _ => enabled.2, ?_,
        fun _ => queued.own (by simp [enabled.1])⟩
      cases quit <;> rfl

/-- The eventfd can be read, or a thread that has just pushed the task is about to write to it. -/
def Announced (state : LoopState τ) (task : Nat) : Prop :=
  0 < state.counter ∨ state.own = some task ∨ ∃ thread, state.others thread = some task

/-- Whatever waits for a swap that comes after `epoll_wait` is announced. -/
def Announces (state : LoopState τ) : Prop :=
  state.phase.waitsFirst = true → ∀ task ∈ state.pendingFunctors, state.Announced task

/-- Outside of `Loop`, the thread of the loop posts only while the eventfd can be read. -/
def PostsAwake (state : LoopState τ) (action : Action τ) : Prop :=
  action = .post → state.phase = .stopped → 0 < state.counter

omit [DecidableEq τ] in
theorem counter_notify_pos : 0 < state.notify.counter := by
  simp only [notify]
  split
  · exact Nat.succ_pos _
  · omega

theorem Announces.push (announces : state.Announces) {thread : τ}
    (step : next state (.push thread) = some after) : after.Announces := by
  rw [next] at step
  split at step
  · rename_i free
    cases step
    intro first task member
    rcases List.mem_append.mp member with before | new
    · rcases announces first task before with readable | own | ⟨other, announced⟩
      · exact .inl readable
      · exact .inr (.inl own)
      · refine .inr (.inr ⟨other, (Function.update_of_ne ?_ _ _).trans announced⟩)
        rintro rfl
        rw [free] at announced
        cases announced
    · cases List.mem_singleton.mp new
      exact .inr (.inr ⟨thread, Function.update_self ..⟩)
  · cases step

theorem Announces.post (announces : state.Announces) (queued : state.Queued)
    (awake : state.PostsAwake .post) (step : next state .post = some after) :
    after.Announces := by
  rw [next] at step
  split at step
  · rename_i enabled
    rcases enabled with ⟨posting, free⟩
    cases step
    intro first task member
    rcases List.mem_append.mp member with before | new
    · rcases announces first task before with readable | own | announced
      · exact .inl readable
      · rw [free] at own
        cases own
      · exact .inr (.inr announced)
    · cases List.mem_singleton.mp new
      cases set : state.callingPendingFunctors with
      | true => exact .inr (.inl (if_pos set))
      | false =>
          -- In a callback the next swap comes before the next `epoll_wait`.
          have calling : state.phase.calling = false := queued.flag.symm.trans set
          exact .inl (awake rfl (LoopPhase.eq_stopped posting calling first))
  · cases step

theorem Announces.next (announces : state.Announces) (queued : state.Queued) {action : Action τ}
    (awake : state.PostsAwake action) (step : LoopState.next state action = some after) :
    after.Announces := by
  cases action with
  | push thread => exact announces.push step
  | post => exact announces.post queued awake step
  | wakeup thread =>
      cases step
      exact fun _ _ _ => .inl counter_notify_pos
  | postWakeup =>
      rcases Option.ite_none_right_eq_some.mp step with ⟨_, ⟨⟩⟩
      exact fun _ _ _ => .inl counter_notify_pos
  | start =>
      rcases Option.ite_none_right_eq_some.mp step with ⟨stopped, ⟨⟩⟩
      exact fun _ => announces (by rw [stopped]; rfl)
  | wait notified =>
      rcases Option.ite_none_right_eq_some.mp step with ⟨_, ⟨⟩⟩
      intro first
      cases first
  | handleRead =>
      rcases Option.ite_none_right_eq_some.mp step with ⟨_, ⟨⟩⟩
      intro first
      cases first
  | enter =>
      rcases Option.ite_none_right_eq_some.mp step with ⟨_, ⟨⟩⟩
      intro first
      cases first
  | swap =>
      rcases Option.ite_none_right_eq_some.mp step with ⟨_, ⟨⟩⟩
      intro _ task member
      cases member
  | call =>
      rw [LoopState.next] at step
      split at step
      · rename_i task rest draining remains
        cases step
        exact fun _ => announces (by rw [draining]; rfl)
      · cases step
  | finish =>
      rcases Option.ite_none_right_eq_some.mp step with ⟨enabled, ⟨⟩⟩
      exact fun _ => announces (by rw [enabled.1]; rfl)
  | leave quit =>
      rcases Option.ite_none_right_eq_some.mp step with ⟨enabled, ⟨⟩⟩
      exact fun _ => announces (by rw [enabled.1]; rfl)

omit [DecidableEq τ] in
theorem Queued.count (queued : state.Queued) {task : Nat} (known : task < state.posted) :
    state.pendingFunctors.count task + state.batch.count task + state.ran.count task = 1 := by
  have once : (List.range state.posted).count task = 1 := by
    rw [List.nodup_range.count, if_pos (List.mem_range.mpr known)]
  rw [← queued.order, List.count_append, List.count_append] at once
  omega

/-- A check of `PostsAwake`. -/
def postsAwake (state : LoopState τ) : Action τ → Bool
  | .post => decide (state.phase = .stopped → 0 < state.counter)
  | _ => true

omit [DecidableEq τ] in
theorem PostsAwake.of_check (state : LoopState τ) (action : Action τ)
    (checked : postsAwake state action = true) : state.PostsAwake action := by
  rintro rfl
  exact of_decide_eq_true checked

end LoopState

end MiniS3.Net
