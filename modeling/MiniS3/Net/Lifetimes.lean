import Mathlib
import MiniS3.Lib.Transition

/-!
# The lifetimes of connections

`epoll` holds raw pointers to channels, and the loop follows those that `epoll_wait` returned one
after the other, while three threads share the connections: the one that accepts them, the one of
their loop, and the one that calls `Stop`.  A connection lives as long as something holds it: the
set of the server, `OnNewConnection`, a task, or the guard of `HandleEvent`.  The last one to drop
it closes its descriptor, which takes the descriptor out of `epoll`.

Connections are known by the number of those made before, and the state has those of one loop, which
is the loop of an IO thread.  Locked sections that wait for nothing inside are single steps; `Stop`
holds the mutex of the set from its first `ForceClose` to the end of `clear`.  What the callbacks of
an event do to their channel comes in any order here, a closed connection included.
-/

namespace MiniS3.Net

open Lib.Transition

/-- A functor that is queued: the body of `Start`, or of `ForceClose`. -/
inductive LifeTask
  | start (pointer : Nat)
  | close (pointer : Nat)
  deriving DecidableEq

/-- The connection that the functor holds. -/
def LifeTask.pointer : LifeTask → Nat
  | start pointer => pointer
  | close pointer => pointer

/-- Where `OnNewConnection` is: the connection is made, in the set, or started. -/
inductive Accepting
  | outside
  | created (pointer : Nat)
  | inserted (pointer : Nat)
  | started (pointer : Nat)
  deriving DecidableEq

/-- The connection that `OnNewConnection` holds. -/
def Accepting.pointer? : Accepting → Option Nat
  | outside => none
  | created pointer => some pointer
  | inserted pointer => some pointer
  | started pointer => some pointer

/-- Where `Stop` is, with the connections that it has not told to close. -/
inductive Stopping
  | outside
  | pushing (rest : Finset Nat)
  | clearing
  deriving DecidableEq

/-- Where the thread of the loop is: before `epoll_wait`, among the events, in the callbacks of one,
among the tasks, or before the end of `DoPendingFunctors`, which drops them. -/
inductive LoopPoint
  | waiting
  | dispatching (ready : List Nat)
  | handling (pointer : Nat) (ready : List Nat)
  | draining (rest : List LifeTask)
  | freeing
  deriving DecidableEq

/-- What `epoll` has for a descriptor: the pointer, and whether it waits to read and to write. -/
structure Interest where
  pointer : Nat
  reading : Bool
  writing : Bool
  deriving DecidableEq

/-- The connections of a loop, and the threads that share them. -/
structure Lives where
  /-- The number of connections ever made. -/
  allocated : Nat
  fd : Nat → Nat
  /-- The two bits of `events_`. -/
  reading : Nat → Bool
  writing : Nat → Bool
  /-- `index_` is not negative. -/
  added : Nat → Bool
  tied : Nat → Bool
  /-- The state of the connection is `CLOSED`. -/
  closed : Nat → Bool
  alive : Nat → Bool
  epoll : Nat → Option Interest
  /-- The calls of `epoll_ctl` that failed. -/
  failures : Nat
  /-- `connections_`. -/
  connections : Finset Nat
  accepting : Accepting
  stopping : Stopping
  /-- `pending_functors_`. -/
  pending : List LifeTask
  /-- `functors`. -/
  batch : List LifeTask
  point : LoopPoint
  guard : Option Nat
  /-- The connection whose close callback is about to take it out of the set. -/
  erasing : Option Nat

namespace Lives

def initial : Lives where
  allocated := 0
  fd _ := 0
  reading _ := false
  writing _ := false
  added _ := false
  tied _ := false
  closed _ := false
  alive _ := false
  epoll _ := none
  failures := 0
  connections := ∅
  accepting := .outside
  stopping := .outside
  pending := []
  batch := []
  point := .waiting
  guard := none
  erasing := none

/-- Something holds the connection. -/
abbrev Held (state : Lives) (pointer : Nat) : Prop :=
  pointer ∈ state.connections ∨ state.accepting.pointer? = some pointer ∨
    (∃ task ∈ state.pending, task.pointer = pointer) ∨
    (∃ task ∈ state.batch, task.pointer = pointer) ∨ state.guard = some pointer

/-- A holder was dropped: if it was the last one, the connection is destroyed, and its descriptor
closed. -/
def release (pointer : Nat) (state : Lives) : Lives :=
  if state.Held pointer then state
  else
    { state with
      alive := Function.update state.alive pointer false
      epoll := Function.update state.epoll (state.fd pointer) none }

/-- Set the events of a channel, and `EventLoop::UpdateChannel`. -/
def setEvents (pointer : Nat) (reading writing : Bool) (state : Lives) : Lives :=
  let changed : Lives :=
    { state with
      reading := Function.update state.reading pointer reading
      writing := Function.update state.writing pointer writing }
  let fd := state.fd pointer
  let entry : Interest := ⟨pointer, reading, writing⟩
  if state.added pointer then
    if reading || writing then
      if (state.epoll fd).isSome then
        { changed with epoll := Function.update state.epoll fd (some entry) }
      else { changed with failures := state.failures + 1 }
    else
      { changed with
        epoll := Function.update state.epoll fd none
        failures := if (state.epoll fd).isSome then state.failures else state.failures + 1
        added := Function.update state.added pointer false }
  else
    if (state.epoll fd).isSome then { changed with failures := state.failures + 1 }
    else
      { changed with
        epoll := Function.update state.epoll fd (some entry)
        added := Function.update state.added pointer true }

/-- `HandleClose` up to the close callback. -/
def handleClose (pointer : Nat) (state : Lives) : Lives :=
  if state.closed pointer then state
  else
    { state.setEvents pointer false false with
      closed := Function.update state.closed pointer true
      erasing := some pointer }

def push (task : LifeTask) (state : Lives) : Lives :=
  { state with pending := state.pending ++ [task] }

/-- The functors of `Start` and of `ForceClose`. -/
def perform : LifeTask → Lives → Lives
  | .start pointer, state =>
      { state with tied := Function.update state.tied pointer true }.setEvents pointer true
        (state.writing pointer)
  | .close pointer, state => state.handleClose pointer

/-- A step of a thread. -/
inductive LifeAction
  /-- A new connection is made for a descriptor that is not open. -/
  | accept (fd : Nat)
  | insert
  /-- `Start` on the connection, which the thread that accepts gives to the loop. -/
  | start
  /-- `OnNewConnection` returns. -/
  | accepted
  /-- `epoll_wait` returns events of these descriptors. -/
  | poll (fds : List Nat)
  | dispatch
  /-- `EnableWriting` or `DisableWriting` in a callback. -/
  | setWriting (writing : Bool)
  /-- A callback closes the connection. -/
  | close
  /-- `OnBodyData` cannot keep the body, and queues a `ForceClose`. -/
  | failBody
  /-- `OnConnectionClose`. -/
  | erase
  | handled
  /-- The idle timer of a connection queues a `ForceClose`. -/
  | expire (pointer : Nat)
  | swap
  | call
  | drained
  | free
  | leave
  /-- `Stop` takes the mutex. -/
  | lock
  | forceClose (pointer : Nat)
  | clear
  | drop (pointer : Nat)
  | unlock

def next : Step Lives LifeAction := fun state action =>
  match action with
  | .accept fd =>
      if state.accepting = .outside ∧
          ∀ pointer < state.allocated, state.alive pointer = true → state.fd pointer ≠ fd then
        some { state with
          allocated := state.allocated + 1
          fd := Function.update state.fd state.allocated fd
          reading := Function.update state.reading state.allocated false
          writing := Function.update state.writing state.allocated false
          added := Function.update state.added state.allocated false
          tied := Function.update state.tied state.allocated false
          closed := Function.update state.closed state.allocated false
          alive := Function.update state.alive state.allocated true
          accepting := .created state.allocated }
      else none
  | .insert =>
      match state.accepting, state.stopping with
      | .created pointer, .outside =>
          some { state with
            connections := insert pointer state.connections
            accepting := .inserted pointer }
      | _, _ => none
  | .start =>
      match state.accepting with
      | .inserted pointer =>
          some { state.push (.start pointer) with accepting := .started pointer }
      | _ => none
  | .accepted =>
      match state.accepting with
      | .started pointer => some ({ state with accepting := .outside }.release pointer)
      | _ => none
  | .poll fds =>
      if state.point = .waiting ∧ fds.Nodup ∧ ∀ fd ∈ fds, (state.epoll fd).isSome = true then
        some { state with
          point := .dispatching (fds.filterMap fun fd => (state.epoll fd).map Interest.pointer) }
      else none
  | .dispatch =>
      match state.point with
      | .dispatching (pointer :: ready) =>
          -- The channel of a connection that is gone cannot be followed.
          if state.alive pointer then
            some { state with
              point := .handling pointer ready
              guard := if state.tied pointer then some pointer else none }
          else none
      | _ => none
  | .setWriting writing =>
      match state.point, state.erasing with
      | .handling pointer _, none =>
          some (state.setEvents pointer (state.reading pointer) writing)
      | _, _ => none
  | .close =>
      match state.point, state.erasing with
      | .handling pointer _, none => some (state.handleClose pointer)
      | _, _ => none
  | .failBody =>
      match state.point, state.erasing with
      | .handling pointer _, none => some (state.push (.close pointer))
      | _, _ => none
  | .erase =>
      match state.erasing, state.stopping with
      | some pointer, .outside =>
          some ({ state with
            connections := state.connections.erase pointer
            erasing := none }.release pointer)
      | _, _ => none
  | .handled =>
      match state.point, state.erasing with
      | .handling pointer ready, none =>
          some ({ state with point := .dispatching ready, guard := none }.release pointer)
      | _, _ => none
  | .expire pointer =>
      match state.point with
      | .dispatching _ => if state.alive pointer then some (state.push (.close pointer)) else none
      | _ => none
  | .swap =>
      if state.point = .dispatching [] then
        some { state with point := .draining state.pending, batch := state.pending, pending := [] }
      else none
  | .call =>
      match state.point, state.erasing with
      | .draining (task :: rest), none => some ({ state with point := .draining rest }.perform task)
      | _, _ => none
  | .drained =>
      match state.point, state.erasing with
      | .draining [], none => some { state with point := .freeing }
      | _, _ => none
  | .free =>
      match state.point, state.batch with
      | .freeing, task :: batch => some ({ state with batch := batch }.release task.pointer)
      | _, _ => none
  | .leave =>
      if state.point = .freeing ∧ state.batch = [] then some { state with point := .waiting } else none
  | .lock =>
      if state.stopping = .outside then some { state with stopping := .pushing state.connections }
      else none
  | .forceClose pointer =>
      match state.stopping with
      | .pushing rest =>
          if pointer ∈ rest then
            some { state.push (.close pointer) with stopping := .pushing (rest.erase pointer) }
          else none
      | _ => none
  | .clear => if state.stopping = .pushing ∅ then some { state with stopping := .clearing } else none
  | .drop pointer =>
      if state.stopping = .clearing ∧ pointer ∈ state.connections then
        some ({ state with connections := state.connections.erase pointer }.release pointer)
      else none
  | .unlock =>
      if state.stopping = .clearing ∧ state.connections = ∅ then
        some { state with stopping := .outside }
      else none

/-! ## The table of `epoll` -/

variable {state after : Lives} {pointer : Nat}

/-- `epoll` has exactly the channels of living connections that count themselves in, with the
events they ask for, and no call of `epoll_ctl` failed. -/
structure Synced (state : Lives) : Prop where
  entry : ∀ fd interest, state.epoll fd = some interest → state.alive interest.pointer = true ∧
    state.fd interest.pointer = fd ∧ state.added interest.pointer = true
  entered : ∀ pointer, state.alive pointer = true → state.added pointer = true →
    state.epoll (state.fd pointer) =
      some ⟨pointer, state.reading pointer, state.writing pointer⟩
  distinct : ∀ one two, state.alive one = true → state.alive two = true →
    state.fd one = state.fd two → one = two
  working : state.failures = 0

/-- A living connection that does not count itself in has no entry. -/
theorem Synced.epoll_eq_none (synced : state.Synced) (alive : state.alive pointer = true)
    (absent : state.added pointer = false) : state.epoll (state.fd pointer) = none := by
  cases found : state.epoll (state.fd pointer) with
  | none => rfl
  | some interest =>
      obtain ⟨lives, same, added⟩ := synced.entry _ _ found
      rw [synced.distinct _ _ lives alive same, absent] at added
      cases added

/-- `setEvents` changes what `epoll` and the channel say of each other. -/
theorem setEvents_frame (pointer : Nat) (reading writing : Bool) (state : Lives) :
    ∃ asksReading asksWriting added epoll failures,
      (∀ other, other ≠ pointer → added other = state.added other) ∧
      state.setEvents pointer reading writing =
        { state with
          reading := asksReading, writing := asksWriting, added := added, epoll := epoll
          failures := failures } := by
  unfold setEvents
  dsimp only
  split_ifs
  · exact ⟨_, _, _, _, _, fun _ _ => rfl, rfl⟩
  · exact ⟨_, _, _, _, _, fun _ _ => rfl, rfl⟩
  · exact ⟨_, _, _, _, _, fun _ other => Function.update_of_ne other _ _, rfl⟩
  · exact ⟨_, _, _, _, _, fun _ other => Function.update_of_ne other _ _, rfl⟩
  · exact ⟨_, _, _, _, _, fun _ _ => rfl, rfl⟩
  · exact ⟨_, _, _, _, _, fun _ other => Function.update_of_ne other _ _, rfl⟩

/-- Other events for a channel, or none, with what `epoll` then has for it. -/
theorem Synced.replace (synced : state.Synced) (alive : state.alive pointer = true)
    (reading writing stays : Bool) :
    ({ state with
        reading := Function.update state.reading pointer reading
        writing := Function.update state.writing pointer writing
        added := Function.update state.added pointer stays
        epoll := Function.update state.epoll (state.fd pointer)
          (if stays then some ⟨pointer, reading, writing⟩ else none) } : Lives).Synced := by
  refine ⟨?_, ?_, synced.distinct, synced.working⟩
  · intro fd interest entry
    dsimp only at entry ⊢
    by_cases same : fd = state.fd pointer
    · subst same
      rw [Function.update_self] at entry
      cases stays with
      | true =>
          cases entry
          exact ⟨alive, rfl, Function.update_self ..⟩
      | false => cases entry
    · rw [Function.update_of_ne same] at entry
      obtain ⟨lives, isFd, counted⟩ := synced.entry fd interest entry
      have differs : interest.pointer ≠ pointer := by
        rintro rfl
        exact same isFd.symm
      rw [Function.update_of_ne differs]
      exact ⟨lives, isFd, counted⟩
  · intro other lives counted
    dsimp only at lives counted ⊢
    by_cases same : other = pointer
    · subst same
      rw [Function.update_self] at counted
      simp [counted]
    · have apart : state.fd other ≠ state.fd pointer :=
        fun shared => same (synced.distinct _ _ lives alive shared)
      rw [Function.update_of_ne same] at counted
      rw [Function.update_of_ne apart, Function.update_of_ne same, Function.update_of_ne same]
      exact synced.entered other lives counted

theorem Synced.setEvents (synced : state.Synced) (alive : state.alive pointer = true)
    (reading writing : Bool) : (state.setEvents pointer reading writing).Synced := by
  unfold Lives.setEvents
  dsimp only
  cases added : state.added pointer with
  | true =>
      rw [synced.entered pointer alive added]
      cases asks : reading || writing with
      | true =>
          have replaced := synced.replace alive reading writing true
          rw [show Function.update state.added pointer true = state.added by
            rw [← added, Function.update_eq_self]] at replaced
          exact replaced
      | false => exact synced.replace alive reading writing false
  | false =>
      rw [synced.epoll_eq_none alive added]
      exact synced.replace alive reading writing true

theorem Synced.release (synced : state.Synced) (alive : state.alive pointer = true) :
    (state.release pointer).Synced := by
  unfold Lives.release
  split
  · exact synced
  · have lives : ∀ other, Function.update state.alive pointer false other = true →
        other ≠ pointer ∧ state.alive other = true := by
      intro other stays
      by_cases same : other = pointer
      · subst same
        simp at stays
      · rw [Function.update_of_ne same] at stays
        exact ⟨same, stays⟩
    refine ⟨?_, ?_, ?_, synced.working⟩
    · intro fd interest entry
      by_cases same : fd = state.fd pointer
      · subst same
        simp at entry
      · simp only [Function.update_of_ne same] at entry
        obtain ⟨stays, is_fd, counted⟩ := synced.entry fd interest entry
        have differs : interest.pointer ≠ pointer := by
          rintro rfl
          exact same is_fd.symm
        exact ⟨by simp [Function.update_of_ne differs, stays], is_fd, counted⟩
    · intro other stays counted
      obtain ⟨differs, stays⟩ := lives other stays
      have apart : state.fd other ≠ state.fd pointer :=
        fun same => differs (synced.distinct _ _ stays alive same)
      simp only [Function.update_of_ne apart]
      exact synced.entered other stays counted
    · intro one two first second same
      exact synced.distinct one two (lives one first).2 (lives two second).2 same

/-! ## Who holds what -/

theorem release_frame (pointer : Nat) (state : Lives) :
    ∃ alive epoll, (∀ other, alive other = true ↔
        state.alive other = true ∧ (other = pointer → state.Held pointer)) ∧
      state.release pointer = { state with alive := alive, epoll := epoll } := by
  unfold release
  split
  · rename_i held
    exact ⟨_, _, fun other => ⟨fun lives => ⟨lives, fun _ => held⟩, And.left⟩, rfl⟩
  · rename_i dropped
    refine ⟨_, _, fun other => ?_, rfl⟩
    by_cases same : other = pointer
    · subst same
      simp [dropped]
    · simp [same]

end Lives

/-- The events that are still to be handled. -/
def LoopPoint.ready : LoopPoint → List Nat
  | dispatching ready => ready
  | handling _ ready => ready
  | _ => []

/-- The same, with the one that is being handled. -/
def LoopPoint.events : LoopPoint → List Nat
  | dispatching ready => ready
  | handling pointer ready => pointer :: ready
  | _ => []

/-- The tasks that are still to be run. -/
def LoopPoint.rest : LoopPoint → List LifeTask
  | draining rest => rest
  | _ => []

namespace Lives

variable {state after : Lives} {pointer : Nat}

abbrev Queued (state : Lives) (pointer : Nat) : Prop :=
  ∃ task ∈ state.pending, task.pointer = pointer

/-- The connection is to be closed, or is being closed. -/
abbrev Told (state : Lives) (pointer : Nat) : Prop :=
  LifeTask.close pointer ∈ state.pending ∨ LifeTask.close pointer ∈ state.point.rest ∨
    state.erasing = some pointer

/-- What the threads know of each other's connections. -/
structure Ordered (state : Lives) : Prop where
  ready : ∀ pointer ∈ state.point.ready,
    (pointer ∈ state.connections ∨ state.Queued pointer) ∧ state.added pointer = true
  apart : state.point.events.Nodup
  guarded : ∀ pointer ready, state.point = .handling pointer ready →
    state.guard = some pointer ∧ state.tied pointer = true ∨
      state.guard = none ∧ state.closed pointer = true ∧ state.Queued pointer
  unguarded : (∀ pointer ready, state.point ≠ .handling pointer ready) → state.guard = none
  empty : state.batch = [] ∨ state.point = .freeing ∨ ∃ rest, state.point = .draining rest
  part : ∀ task ∈ state.point.rest, task ∈ state.batch
  tied : ∀ pointer, state.added pointer = true →
    state.tied pointer = true ∨ state.closed pointer = true
  erasing : ∀ pointer, state.erasing = some pointer → state.closed pointer = true ∧
    ((∃ ready, state.point = .handling pointer ready ∧ state.guard = some pointer) ∨
      ∃ rest, state.point = .draining rest ∧ LifeTask.close pointer ∈ state.batch)
  connected : ∀ pointer ∈ state.connections, state.closed pointer = true →
    state.erasing = some pointer
  pushing : ∀ rest, state.stopping = .pushing rest → rest ⊆ state.connections ∧
    ∀ pointer ∈ state.connections, pointer ∉ rest → state.Told pointer
  clearing : state.stopping = .clearing → ∀ pointer ∈ state.connections, state.Told pointer
  unstarted : ∀ pointer,
    state.accepting = .created pointer ∨ state.accepting = .inserted pointer →
      state.tied pointer = false ∧ LifeTask.start pointer ∉ state.pending ∧
        LifeTask.start pointer ∉ state.batch
  accepted : ∀ pointer,
    state.accepting = .inserted pointer ∨ state.accepting = .started pointer →
      state.closed pointer = false → pointer ∉ state.connections → state.Told pointer

theorem ordered_initial : initial.Ordered := by
  constructor <;> simp [initial, LoopPoint.ready, LoopPoint.events, LoopPoint.rest]

/-- The connection that `OnNewConnection` still holds is closed, and it is in `epoll` or not even
in the set of the server. -/
abbrev Overtaken (state : Lives) : Prop :=
  ∃ pointer ∈ state.accepting.pointer?, state.closed pointer = true ∧
    (state.added pointer = true ∨ state.accepting = .created pointer)

theorem Ordered.release (ordered : state.Ordered) (pointer : Nat) :
    (state.release pointer).Ordered := by
  obtain ⟨alive, epoll, -, same⟩ := release_frame pointer state
  rw [same]
  exact ⟨ordered.ready, ordered.apart, ordered.guarded, ordered.unguarded, ordered.empty,
    ordered.part, ordered.tied, ordered.erasing, ordered.connected, ordered.pushing,
    ordered.clearing, ordered.unstarted, ordered.accepted⟩

theorem Ordered.setEvents (ordered : state.Ordered) (handled : pointer ∉ state.point.ready)
    (known : state.tied pointer = true ∨ state.closed pointer = true) (reading writing : Bool) :
    (state.setEvents pointer reading writing).Ordered := by
  obtain ⟨asksReading, asksWriting, added, epoll, failures, others, same⟩ :=
    setEvents_frame pointer reading writing state
  rw [same]
  refine ⟨?_, ordered.apart, ordered.guarded, ordered.unguarded, ordered.empty,
    ordered.part, ?_, ordered.erasing, ordered.connected, ordered.pushing,
    ordered.clearing, ordered.unstarted, ordered.accepted⟩
  · intro other isReady
    have differs : other ≠ pointer := by
      rintro rfl
      exact handled isReady
    obtain ⟨held, counted⟩ := ordered.ready other isReady
    exact ⟨held, (others other differs).trans counted⟩
  · intro other counted
    by_cases differs : other = pointer
    · exact differs ▸ known
    · exact ordered.tied other ((others other differs).symm.trans counted)

/-- A task that is pushed tells more of what is to come. -/
theorem Ordered.push (ordered : state.Ordered) {task : LifeTask}
    (started : ∀ pointer,
      state.accepting = .created pointer ∨ state.accepting = .inserted pointer →
        task ≠ .start pointer) : (state.push task).Ordered := by
  have told : ∀ pointer, state.Told pointer → (state.push task).Told pointer := by
    intro pointer told
    exact told.imp (fun queued => List.mem_append_left _ queued) id
  have queued : ∀ pointer, state.Queued pointer → (state.push task).Queued pointer := by
    rintro pointer ⟨other, member, rfl⟩
    exact ⟨other, List.mem_append_left _ member, rfl⟩
  refine ⟨?_, ordered.apart, ?_, ordered.unguarded, ordered.empty, ordered.part, ordered.tied,
    ordered.erasing, ordered.connected, ?_, ?_, ?_, ?_⟩
  · intro pointer isReady
    obtain ⟨held, counted⟩ := ordered.ready pointer isReady
    exact ⟨held.imp_right (queued pointer), counted⟩
  · intro pointer ready handling
    exact (ordered.guarded pointer ready handling).imp_right
      fun ⟨free, closed, waits⟩ => ⟨free, closed, queued pointer waits⟩
  · intro rest pushing
    obtain ⟨part, toldSome⟩ := ordered.pushing rest pushing
    exact ⟨part, fun pointer member outside => told pointer (toldSome pointer member outside)⟩
  · exact fun clearing pointer member => told pointer (ordered.clearing clearing pointer member)
  · intro pointer unstarted
    obtain ⟨untied, notPending, notTaken⟩ := ordered.unstarted pointer unstarted
    refine ⟨untied, ?_, notTaken⟩
    simp only [Lives.push, List.mem_append, List.mem_singleton, not_or]
    exact ⟨notPending, fun same => started pointer unstarted same.symm⟩
  · exact fun pointer accepting isOpen outside =>
      told pointer (ordered.accepted pointer accepting isOpen outside)

/-! ### What each step keeps of it -/

/-- A new connection has a number that nobody knows yet. -/
theorem Ordered.accept (ordered : state.Ordered)
    (below : ∀ pointer, state.Held pointer → pointer < state.allocated) (fd : Nat) :
    ({ state with
        allocated := state.allocated + 1
        fd := Function.update state.fd state.allocated fd
        reading := Function.update state.reading state.allocated false
        writing := Function.update state.writing state.allocated false
        added := Function.update state.added state.allocated false
        tied := Function.update state.tied state.allocated false
        closed := Function.update state.closed state.allocated false
        alive := Function.update state.alive state.allocated true
        accepting := .created state.allocated } : Lives).Ordered where
  ready pointer isReady := by
    have known := ordered.ready pointer isReady
    grind [Function.update_of_ne]
  apart := ordered.apart
  guarded pointer ready handling := by
    have known := ordered.guarded pointer ready handling
    grind [Function.update_of_ne]
  unguarded := ordered.unguarded
  empty := ordered.empty
  part := ordered.part
  tied pointer := by
    have known := ordered.tied pointer
    grind [Function.update_apply]
  erasing pointer erases := by
    have known := ordered.erasing pointer erases
    grind [Function.update_of_ne, LifeTask.pointer]
  connected pointer inSet := by
    have known := ordered.connected pointer inSet
    grind [Function.update_of_ne]
  pushing := ordered.pushing
  clearing := ordered.clearing
  unstarted pointer isNew := by
    obtain rfl : state.allocated = pointer := by simpa using isNew
    refine ⟨by simp, fun queued => ?_, fun taken => ?_⟩
    · exact (below _ (.inr (.inr (.inl ⟨_, queued, rfl⟩)))).false
    · exact (below _ (.inr (.inr (.inr (.inl ⟨_, taken, rfl⟩))))).false
  accepted pointer isNew := by simp at isNew

theorem Ordered.insert (ordered : state.Ordered) (created : state.accepting = .created pointer)
    (outside : state.stopping = .outside) (isOpen : state.closed pointer = false) :
    ({ state with
        connections := insert pointer state.connections
        accepting := .inserted pointer } : Lives).Ordered where
  ready other isReady :=
    (ordered.ready other isReady).imp_left (Or.imp_left Finset.mem_insert_of_mem)
  apart := ordered.apart
  guarded := ordered.guarded
  unguarded := ordered.unguarded
  empty := ordered.empty
  part := ordered.part
  tied := ordered.tied
  erasing := ordered.erasing
  connected other inSet closed := by
    rcases Finset.mem_insert.mp inSet with rfl | inSet
    · rw [isOpen] at closed
      cases closed
    · exact ordered.connected other inSet closed
  pushing rest pushing := by
    rw [outside] at pushing
    cases pushing
  clearing clears := by
    rw [outside] at clears
    cases clears
  unstarted other isNew := by
    obtain rfl : pointer = other := by simpa using isNew
    exact ordered.unstarted pointer (.inl created)
  accepted other isNew _ notInSet := by
    obtain rfl : pointer = other := by simpa using isNew
    exact absurd (Finset.mem_insert_self pointer _) notInSet

theorem Ordered.start (ordered : state.Ordered) (inserted : state.accepting = .inserted pointer) :
    ({ state with accepting := .started pointer } : Lives).Ordered where
  ready := ordered.ready
  apart := ordered.apart
  guarded := ordered.guarded
  unguarded := ordered.unguarded
  empty := ordered.empty
  part := ordered.part
  tied := ordered.tied
  erasing := ordered.erasing
  connected := ordered.connected
  pushing := ordered.pushing
  clearing := ordered.clearing
  unstarted other isNew := by simp at isNew
  accepted other isNew := by
    obtain rfl : pointer = other := by simpa using isNew
    exact ordered.accepted pointer (.inl inserted)

theorem Ordered.outside (ordered : state.Ordered) :
    ({ state with accepting := .outside } : Lives).Ordered where
  ready := ordered.ready
  apart := ordered.apart
  guarded := ordered.guarded
  unguarded := ordered.unguarded
  empty := ordered.empty
  part := ordered.part
  tied := ordered.tied
  erasing := ordered.erasing
  connected := ordered.connected
  pushing := ordered.pushing
  clearing := ordered.clearing
  unstarted other isNew := by simp at isNew
  accepted other isNew := by simp at isNew

/-- Nothing is being erased between two events, nor while the loop waits. -/
theorem Ordered.erasing_eq_none (ordered : state.Ordered)
    (noCallback : ∀ pointer ready, state.point ≠ .handling pointer ready)
    (noTask : ∀ rest, state.point ≠ .draining rest) : state.erasing = none := by
  cases erases : state.erasing with
  | none => rfl
  | some pointer =>
      rcases (ordered.erasing pointer erases).2 with ⟨ready, handling, -⟩ | ⟨rest, draining, -⟩
      · exact absurd handling (noCallback pointer ready)
      · exact absurd draining (noTask rest)

/-- Unless one is being erased, the connections in the set are open. -/
theorem Ordered.open_of_mem (ordered : state.Ordered) (free : state.erasing = none) :
    ∀ pointer ∈ state.connections, state.closed pointer = false := by
  intro pointer inSet
  cases closed : state.closed pointer with
  | false => rfl
  | true =>
      have erases := ordered.connected pointer inSet closed
      rw [free] at erases
      cases erases

/-- The thread of the loop moves on, which changes nothing about the connections. -/
theorem Ordered.move (ordered : state.Ordered) {point : LoopPoint} {pending batch : List LifeTask}
    {guard : Option Nat}
    (ready : ∀ pointer ∈ point.ready, (pointer ∈ state.connections ∨
      ∃ task ∈ pending, task.pointer = pointer) ∧ state.added pointer = true)
    (apart : point.events.Nodup)
    (guarded : ∀ pointer ready, point = .handling pointer ready →
      guard = some pointer ∧ state.tied pointer = true ∨
        guard = none ∧ state.closed pointer = true ∧ ∃ task ∈ pending, task.pointer = pointer)
    (unguarded : (∀ pointer ready, point ≠ .handling pointer ready) → guard = none)
    (empty : batch = [] ∨ point = .freeing ∨ ∃ rest, point = .draining rest)
    (part : ∀ task ∈ point.rest, task ∈ batch) (free : state.erasing = none)
    (told : ∀ pointer, state.closed pointer = false →
      LifeTask.close pointer ∈ state.pending ∨ LifeTask.close pointer ∈ state.point.rest →
        LifeTask.close pointer ∈ pending ∨ LifeTask.close pointer ∈ point.rest)
    (known : ∀ task, task ∈ pending ∨ task ∈ batch → task ∈ state.pending ∨ task ∈ state.batch) :
    ({ state with point := point, pending := pending, batch := batch, guard := guard } :
      Lives).Ordered := by
  have stillTold : ∀ pointer, state.closed pointer = false → state.Told pointer →
      LifeTask.close pointer ∈ pending ∨ LifeTask.close pointer ∈ point.rest ∨
        state.erasing = some pointer := by
    rintro pointer isOpen (queued | tasked | erases)
    · exact (told _ isOpen (.inl queued)).imp_right .inl
    · exact (told _ isOpen (.inr tasked)).imp_right .inl
    · exact .inr (.inr erases)
  have isOpen := ordered.open_of_mem free
  refine ⟨ready, apart, guarded, unguarded, empty, part, ordered.tied, ?_, ordered.connected, ?_,
    ?_, ?_, ?_⟩
  · intro pointer erases
    exact absurd (free.symm.trans erases) (by simp)
  · intro rest pushing
    obtain ⟨inSet, toldSome⟩ := ordered.pushing rest pushing
    exact ⟨inSet, fun pointer member outside =>
      stillTold pointer (isOpen pointer member) (toldSome pointer member outside)⟩
  · exact fun clears pointer member =>
      stillTold pointer (isOpen pointer member) (ordered.clearing clears pointer member)
  · intro pointer isNew
    obtain ⟨untied, notQueued, notTaken⟩ := ordered.unstarted pointer isNew
    exact ⟨untied, fun queued => (known _ (.inl queued)).elim notQueued notTaken,
      fun taken => (known _ (.inr taken)).elim notQueued notTaken⟩
  · exact fun pointer isNew isOpen outside =>
      stillTold pointer isOpen (ordered.accepted pointer isNew isOpen outside)

/-- A connection whose channel is not tied was closed before its start, so that it is not in the
set any more. -/
theorem Ordered.dispatch (ordered : state.Ordered) {ready : List Nat}
    (dispatching : state.point = .dispatching (pointer :: ready)) :
    ({ state with
        point := .handling pointer ready
        guard := if state.tied pointer then some pointer else none } : Lives).Ordered := by
  have free := ordered.erasing_eq_none (by simp [dispatching]) (by simp [dispatching])
  have isReady := ordered.ready
  have apart := ordered.apart
  have empty := ordered.empty
  rw [dispatching] at isReady apart empty
  refine ordered.move (fun other later => isReady other (List.mem_cons_of_mem _ later)) apart ?_ ?_
    (by simpa using empty) (by simp [LoopPoint.rest]) free (by simp [dispatching, LoopPoint.rest])
    (fun _ => id)
  · intro other rest handling
    obtain ⟨rfl, rfl⟩ : pointer = other ∧ ready = rest := by simpa using handling
    obtain ⟨held, added⟩ := isReady pointer List.mem_cons_self
    cases tied : state.tied pointer with
    | true => exact .inl (by simp)
    | false =>
        have closed : state.closed pointer = true := by
          simpa [tied] using ordered.tied pointer added
        refine .inr ⟨by simp, closed, held.resolve_left fun inSet => ?_⟩
        rw [ordered.open_of_mem free pointer inSet] at closed
        cases closed
  · exact fun elsewhere => absurd rfl (elsewhere pointer ready)

theorem Ordered.handled (ordered : state.Ordered) {ready : List Nat}
    (handling : state.point = .handling pointer ready) (free : state.erasing = none) :
    ({ state with point := .dispatching ready, guard := none } : Lives).Ordered := by
  have isReady := ordered.ready
  have apart := ordered.apart
  have empty := ordered.empty
  rw [handling] at isReady apart empty
  exact ordered.move isReady (List.nodup_cons.mp apart).2 (by simp) (fun _ => rfl)
    (by simpa using empty) (by simp [LoopPoint.rest]) free (by simp [handling, LoopPoint.rest])
    (fun _ => id)

theorem Ordered.swap (ordered : state.Ordered) (dispatching : state.point = .dispatching []) :
    ({ state with point := .draining state.pending, batch := state.pending, pending := [] } :
      Lives).Ordered := by
  have free := ordered.erasing_eq_none (by simp [dispatching]) (by simp [dispatching])
  have unguarded := ordered.unguarded (by simp [dispatching])
  exact ordered.move (by simp [LoopPoint.ready]) (by simp [LoopPoint.events]) (by simp)
    (fun _ => unguarded) (by simp) (fun _ => id) free (by simp [dispatching, LoopPoint.rest])
    (by simp +contextual)

theorem Ordered.drained (ordered : state.Ordered) (draining : state.point = .draining [])
    (free : state.erasing = none) : ({ state with point := .freeing } : Lives).Ordered := by
  have unguarded := ordered.unguarded (by simp [draining])
  exact ordered.move (by simp [LoopPoint.ready]) (by simp [LoopPoint.events]) (by simp)
    (fun _ => unguarded) (by simp) (by simp [LoopPoint.rest]) free
    (by simp [draining, LoopPoint.rest]) (fun _ => id)

theorem Ordered.free (ordered : state.Ordered) (freeing : state.point = .freeing) {task : LifeTask}
    {batch : List LifeTask} (taken : state.batch = task :: batch) :
    ({ state with batch := batch } : Lives).Ordered := by
  have free := ordered.erasing_eq_none (by simp [freeing]) (by simp [freeing])
  have unguarded := ordered.unguarded (by simp [freeing])
  refine ordered.move ordered.ready ordered.apart ordered.guarded (fun _ => unguarded)
    (by simp [freeing]) (by simp [freeing, LoopPoint.rest]) free (fun _ _ => id) ?_
  rintro other (queued | later)
  · exact .inl queued
  · rw [taken]
    exact .inr (List.mem_cons_of_mem _ later)

theorem Ordered.leave (ordered : state.Ordered) (freeing : state.point = .freeing)
    (dropped : state.batch = []) : ({ state with point := .waiting } : Lives).Ordered := by
  have free := ordered.erasing_eq_none (by simp [freeing]) (by simp [freeing])
  have unguarded := ordered.unguarded (by simp [freeing])
  exact ordered.move (by simp [LoopPoint.ready]) (by simp [LoopPoint.events]) (by simp)
    (fun _ => unguarded) (by simp [dropped]) (by simp [LoopPoint.rest]) free
    (by simp [freeing, LoopPoint.rest]) (fun _ => id)

theorem Ordered.stops (ordered : state.Ordered) {stopping : Stopping}
    (pushing : ∀ rest, stopping = .pushing rest → rest ⊆ state.connections ∧
      ∀ pointer ∈ state.connections, pointer ∉ rest → state.Told pointer)
    (clearing : stopping = .clearing → ∀ pointer ∈ state.connections, state.Told pointer) :
    ({ state with stopping := stopping } : Lives).Ordered :=
  ⟨ordered.ready, ordered.apart, ordered.guarded, ordered.unguarded, ordered.empty, ordered.part,
    ordered.tied, ordered.erasing, ordered.connected, pushing, clearing, ordered.unstarted,
    ordered.accepted⟩

/-- The connection that is erased is not among the events that are still to be handled. -/
theorem Ordered.notMem_ready (ordered : state.Ordered) (erases : state.erasing = some pointer) :
    pointer ∉ state.point.ready := by
  have apart := ordered.apart
  rcases (ordered.erasing pointer erases).2 with ⟨ready, handling, -⟩ | ⟨rest, draining, -⟩
  · rw [handling] at apart ⊢
    exact (List.nodup_cons.mp apart).1
  · rw [draining]
    simp [LoopPoint.ready]

theorem Ordered.erase (ordered : state.Ordered) (erases : state.erasing = some pointer)
    (outside : state.stopping = .outside) :
    ({ state with
        connections := state.connections.erase pointer
        erasing := none } : Lives).Ordered where
  ready other isReady := by
    have differs : other ≠ pointer := by
      rintro rfl
      exact ordered.notMem_ready erases isReady
    exact (ordered.ready other isReady).imp_left
      (Or.imp_left fun inSet => Finset.mem_erase.mpr ⟨differs, inSet⟩)
  apart := ordered.apart
  guarded := ordered.guarded
  unguarded := ordered.unguarded
  empty := ordered.empty
  part := ordered.part
  tied := ordered.tied
  erasing other erasing := by cases erasing
  connected other inSet closed := by
    obtain ⟨differs, inSet⟩ := Finset.mem_erase.mp inSet
    have same := ordered.connected other inSet closed
    rw [erases, Option.some.injEq] at same
    exact absurd same.symm differs
  pushing rest pushing := by
    rw [outside] at pushing
    cases pushing
  clearing clears := by
    rw [outside] at clears
    cases clears
  unstarted := ordered.unstarted
  accepted other isNew isOpen notInSet := by
    have differs : other ≠ pointer := by
      rintro rfl
      rw [(ordered.erasing other erases).1] at isOpen
      cases isOpen
    have before : other ∉ state.connections :=
      fun inSet => notInSet (Finset.mem_erase.mpr ⟨differs, inSet⟩)
    rcases ordered.accepted other isNew isOpen before with queued | tasked | erasing
    · exact .inl queued
    · exact .inr (.inl tasked)
    · rw [erases, Option.some.injEq] at erasing
      exact absurd erasing.symm differs

/-- `clear` drops connections that were all told to close. -/
theorem Ordered.drop (ordered : state.Ordered) (clears : state.stopping = .clearing)
    (inSet : pointer ∈ state.connections) :
    ({ state with connections := state.connections.erase pointer } : Lives).Ordered where
  ready other isReady := by
    obtain ⟨held, added⟩ := ordered.ready other isReady
    refine ⟨?_, added⟩
    by_cases differs : other = pointer
    · subst differs
      rcases ordered.clearing clears other inSet with queued | tasked | erases
      · exact .inr ⟨_, queued, rfl⟩
      · cases point : state.point <;> simp_all [LoopPoint.ready, LoopPoint.rest]
      · exact absurd isReady (ordered.notMem_ready erases)
    · exact held.imp_left fun inSet => Finset.mem_erase.mpr ⟨differs, inSet⟩
  apart := ordered.apart
  guarded := ordered.guarded
  unguarded := ordered.unguarded
  empty := ordered.empty
  part := ordered.part
  tied := ordered.tied
  erasing := ordered.erasing
  connected other member := ordered.connected other (Finset.mem_of_mem_erase member)
  pushing rest pushing := by
    rw [clears] at pushing
    cases pushing
  clearing _ other member := ordered.clearing clears other (Finset.mem_of_mem_erase member)
  unstarted := ordered.unstarted
  accepted other isNew isOpen notInSet := by
    by_cases differs : other = pointer
    · subst differs
      exact ordered.clearing clears other inSet
    · exact ordered.accepted other isNew isOpen
        fun inSet => notInSet (Finset.mem_erase.mpr ⟨differs, inSet⟩)

/-- An open connection is closed by the callback or the task that the loop is in. -/
theorem Ordered.closes (ordered : state.Ordered) (free : state.erasing = none)
    {point : LoopPoint} {reading writing added : Nat → Bool} {epoll : Nat → Option Interest}
    {failures : Nat} (others : ∀ other, other ≠ pointer → added other = state.added other)
    (ready : ∀ other ∈ point.ready, other ≠ pointer ∧ other ∈ state.point.ready)
    (apart : point.events.Nodup)
    (guarded : ∀ other ready, point = .handling other ready →
      state.guard = some other ∧ state.tied other = true)
    (unguarded : (∀ other ready, point ≠ .handling other ready) → state.guard = none)
    (empty : state.batch = [] ∨ point = .freeing ∨ ∃ rest, point = .draining rest)
    (part : ∀ task ∈ point.rest, task ∈ state.batch)
    (runs : (∃ ready, point = .handling pointer ready ∧ state.guard = some pointer) ∨
      ∃ rest, point = .draining rest ∧ LifeTask.close pointer ∈ state.batch)
    (told : ∀ task ∈ state.point.rest, task ≠ .close pointer → task ∈ point.rest) :
    ({ state with
        point := point, reading := reading, writing := writing, added := added, epoll := epoll
        failures := failures
        closed := Function.update state.closed pointer true
        erasing := some pointer } : Lives).Ordered := by
  have stillTold : ∀ other, state.Told other → LifeTask.close other ∈ state.pending ∨
      LifeTask.close other ∈ point.rest ∨ some pointer = some other := by
    rintro other (queued | tasked | erases)
    · exact .inl queued
    · by_cases same : other = pointer
      · exact .inr (.inr (congrArg some same.symm))
      · exact .inr (.inl (told _ tasked (by simpa using same)))
    · exact absurd (free.symm.trans erases) (by simp)
  refine ⟨?_, apart, fun other rest handling => .inl (guarded other rest handling), unguarded,
    empty, part, ?_, ?_, ?_, ?_, ?_, ordered.unstarted, ?_⟩
  · intro other isReady
    obtain ⟨differs, before⟩ := ready other isReady
    obtain ⟨held, counted⟩ := ordered.ready other before
    exact ⟨held, (others other differs).trans counted⟩
  · intro other counted
    by_cases same : other = pointer
    · exact .inr (by simp [same])
    · have known := ordered.tied other ((others other same).symm.trans counted)
      exact known.imp_right fun closed => by simp [Function.update_of_ne same, closed]
  · rintro other ⟨rfl⟩
    exact ⟨by simp, runs⟩
  · intro other inSet closed
    by_cases same : other = pointer
    · rw [same]
    · have isOpen := ordered.open_of_mem free other inSet
      simp [Function.update_of_ne same, isOpen] at closed
  · intro rest pushing
    obtain ⟨inSet, toldSome⟩ := ordered.pushing rest pushing
    exact ⟨inSet, fun other member outside => stillTold other (toldSome other member outside)⟩
  · exact fun clears other member => stillTold other (ordered.clearing clears other member)
  · intro other isNew isOpen outside
    have differs : other ≠ pointer := by
      rintro rfl
      simp at isOpen
    dsimp only at isOpen
    rw [Function.update_of_ne differs] at isOpen
    exact stillTold other (ordered.accepted other isNew isOpen outside)

/-- Closing a connection in one of its callbacks. -/
theorem Ordered.close (ordered : state.Ordered) {ready : List Nat}
    (handling : state.point = .handling pointer ready) (free : state.erasing = none) :
    (state.handleClose pointer).Ordered := by
  unfold handleClose
  split
  · exact ordered
  · rename_i isOpen
    obtain ⟨_, _, _, _, _, others, same⟩ := setEvents_frame pointer false false state
    rw [same]
    have guards := (ordered.guarded pointer ready handling).resolve_right
      fun closed => isOpen closed.2.1
    have apart := ordered.apart
    rw [handling] at apart
    refine ordered.closes free others ?_ ordered.apart ?_ ordered.unguarded ordered.empty
      ordered.part (.inl ⟨ready, handling, guards.1⟩) (fun _ member _ => member)
    · intro other isReady
      refine ⟨?_, isReady⟩
      rintro rfl
      rw [handling] at isReady
      exact (List.nodup_cons.mp apart).1 isReady
    · intro other rest handles
      rw [handling, LoopPoint.handling.injEq] at handles
      rw [← handles.1]
      exact guards

/-- The start of a connection that is not new to `OnNewConnection`. -/
theorem Ordered.tie (ordered : state.Ordered) (known : ∀ other,
    state.accepting = .created other ∨ state.accepting = .inserted other → other ≠ pointer) :
    ({ state with tied := Function.update state.tied pointer true } : Lives).Ordered := by
  have tied : ∀ other, state.tied other = true →
      Function.update state.tied pointer true other = true := by
    intro other tied
    by_cases same : other = pointer
    · simp [same]
    · rw [Function.update_of_ne same, tied]
  refine ⟨ordered.ready, ordered.apart, ?_, ordered.unguarded, ordered.empty, ordered.part,
    fun other counted => (ordered.tied other counted).imp_left (tied other), ordered.erasing,
    ordered.connected, ordered.pushing, ordered.clearing, ?_, ordered.accepted⟩
  · intro other rest handling
    exact (ordered.guarded other rest handling).imp_left (And.imp_right (tied other))
  · intro other isNew
    obtain ⟨untied, others⟩ := ordered.unstarted other isNew
    exact ⟨by simp [Function.update_of_ne (known other isNew), untied], others⟩

theorem Ordered.call (ordered : state.Ordered) {task : LifeTask} {rest : List LifeTask}
    (draining : state.point = .draining (task :: rest)) (free : state.erasing = none) :
    ({ state with point := .draining rest }.perform task).Ordered := by
  have unguarded := ordered.unguarded (by simp [draining])
  have part := ordered.part
  rw [draining] at part
  have taken := part task List.mem_cons_self
  have later : ∀ other ∈ (LoopPoint.draining rest).rest, other ∈ state.batch :=
    fun other member => part other (List.mem_cons_of_mem _ member)
  have moves : (∀ pointer, task = .close pointer → state.closed pointer = true) →
      ({ state with point := .draining rest } : Lives).Ordered := by
    intro done
    refine ordered.move (by simp [LoopPoint.ready]) (by simp [LoopPoint.events]) (by simp)
      (fun _ => unguarded) (by simp) later free ?_ (fun _ => id)
    rintro pointer isOpen (queued | tasked)
    · exact .inl queued
    · rw [draining] at tasked
      rcases List.mem_cons.mp tasked with same | tasked
      · rw [done pointer same.symm] at isOpen
        cases isOpen
      · exact .inr tasked
  cases task with
  | start pointer =>
      refine ((moves (by simp)).tie ?_).setEvents (by simp [LoopPoint.ready]) (.inl (by simp)) _ _
      rintro other isNew rfl
      exact (ordered.unstarted other isNew).2.2 taken
  | close pointer =>
      change ({ state with point := .draining rest }.handleClose pointer).Ordered
      unfold handleClose
      split
      · rename_i closed
        exact moves (by simpa using closed)
      · obtain ⟨_, _, _, _, _, others, same⟩ :=
          setEvents_frame pointer false false { state with point := .draining rest }
        rw [same]
        refine ordered.closes free others (by simp [LoopPoint.ready]) (by simp [LoopPoint.events])
          (by simp) (fun _ => unguarded) (by simp) later (.inr ⟨rest, rfl, taken⟩) ?_
        intro other member differs
        rw [draining] at member
        exact (List.mem_cons.mp member).resolve_left differs

/-- The connections are alive that something holds, and they were all made. -/
structure Counted (state : Lives) : Prop where
  alive : ∀ pointer, state.alive pointer = true ↔ state.Held pointer
  below : ∀ pointer, state.alive pointer = true → pointer < state.allocated

theorem Ordered.poll (ordered : state.Ordered) (synced : state.Synced) (counted : state.Counted)
    (onTime : ¬state.Overtaken) (waiting : state.point = .waiting) {fds : List Nat}
    (distinct : fds.Nodup) :
    ({ state with
        point := .dispatching (fds.filterMap fun fd => (state.epoll fd).map Interest.pointer) } :
      Lives).Ordered := by
  have entries : ∀ other ∈ fds.filterMap (fun fd => (state.epoll fd).map Interest.pointer),
      state.alive other = true ∧ state.added other = true := by
    intro other member
    obtain ⟨fd, -, same⟩ := List.mem_filterMap.mp member
    obtain ⟨interest, entry, rfl⟩ := Option.map_eq_some_iff.mp same
    exact ⟨(synced.entry fd interest entry).1, (synced.entry fd interest entry).2.2⟩
  have nodup : (fds.filterMap fun fd => (state.epoll fd).map Interest.pointer).Nodup := by
    refine distinct.filterMap ?_
    intro one two other first second
    obtain ⟨here, entry, rfl⟩ := Option.map_eq_some_iff.mp first
    obtain ⟨there, second, same⟩ := Option.map_eq_some_iff.mp second
    rw [← (synced.entry one here entry).2.1, ← (synced.entry two there second).2.1, same]
  have free := ordered.erasing_eq_none (by simp [waiting]) (by simp [waiting])
  have unguarded := ordered.unguarded (by simp [waiting])
  have empty : state.batch = [] := by simpa [waiting] using ordered.empty
  refine ordered.move ?_ nodup (by simp) (fun _ => unguarded) (.inl empty)
    (by simp [LoopPoint.rest]) free (by simp [waiting, LoopPoint.rest]) (fun _ => id)
  intro other member
  obtain ⟨alive, added⟩ := entries other member
  refine ⟨?_, added⟩
  rcases (counted.alive other).mp alive with inSet | accepting | queued | taken | guards
  · exact .inl inSet
  · -- A connection that is only held by `OnNewConnection` is in `epoll` because it was overtaken.
    have isOpen : state.closed other = false := by
      by_contra closed
      exact onTime ⟨other, accepting, by simpa using closed, .inl added⟩
    have tied : state.tied other = true := by simpa [isOpen] using ordered.tied other added
    by_cases inSet : other ∈ state.connections
    · exact .inl inSet
    have started : state.accepting = .started other := by
      cases phase : state.accepting with
      | outside => simp [phase, Accepting.pointer?] at accepting
      | created pointer | inserted pointer =>
          obtain rfl : pointer = other := by simpa [phase, Accepting.pointer?] using accepting
          rw [(ordered.unstarted pointer (by simp [phase])).1] at tied
          cases tied
      | started pointer =>
          obtain rfl : pointer = other := by simpa [phase, Accepting.pointer?] using accepting
          rfl
    rcases ordered.accepted other (.inr started) isOpen inSet with queued | tasked | erases
    · exact .inr ⟨_, queued, rfl⟩
    · simp [waiting, LoopPoint.rest] at tasked
    · exact absurd (free.symm.trans erases) (by simp)
  · exact .inr queued
  · simp [empty] at taken
  · simp [unguarded] at guards

/-- One holder of a connection is gone. -/
theorem Counted.release (lives : state.alive pointer = true)
    (others : ∀ other, other ≠ pointer → (state.alive other = true ↔ state.Held other))
    (below : ∀ other, state.alive other = true → other < state.allocated) :
    (state.release pointer).Counted := by
  obtain ⟨alive, epoll, still, same⟩ := release_frame pointer state
  rw [same]
  constructor
  · intro other
    rw [still other]
    by_cases differs : other = pointer
    · subst differs
      simp [lives]
    · simpa [differs] using others other differs
  · intro other stays
    exact below other ((still other).mp stays).1

theorem Counted.setEvents (counted : state.Counted) (reading writing : Bool) :
    (state.setEvents pointer reading writing).Counted := by
  obtain ⟨asksReading, asksWriting, added, epoll, failures, -, same⟩ :=
    setEvents_frame pointer reading writing state
  rw [same]
  exact ⟨counted.alive, counted.below⟩

theorem Counted.handleClose (counted : state.Counted) : (state.handleClose pointer).Counted := by
  unfold Lives.handleClose
  split
  · exact counted
  · have changed : (state.setEvents pointer false false).Counted := counted.setEvents false false
    exact ⟨changed.alive, changed.below⟩

theorem Synced.handleClose (synced : state.Synced) (alive : state.alive pointer = true) :
    (state.handleClose pointer).Synced := by
  unfold Lives.handleClose
  split
  · exact synced
  · have changed := synced.setEvents alive false false
    exact ⟨changed.entry, changed.entered, changed.distinct, changed.working⟩

theorem Synced.perform (synced : state.Synced) {task : LifeTask}
    (alive : state.alive task.pointer = true) : (state.perform task).Synced := by
  cases task with
  | start pointer =>
      have tied : ({ state with tied := Function.update state.tied pointer true } : Lives).Synced :=
        ⟨synced.entry, synced.entered, synced.distinct, synced.working⟩
      exact tied.setEvents alive _ _
  | close pointer => exact synced.handleClose alive

theorem Counted.perform (counted : state.Counted) {task : LifeTask} :
    (state.perform task).Counted := by
  cases task with
  | start pointer =>
      have tied : ({ state with tied := Function.update state.tied pointer true } : Lives).Counted :=
        ⟨counted.alive, counted.below⟩
      exact tied.setEvents _ _
  | close pointer => exact counted.handleClose

/-- What every step keeps that finds no connection overtaken. -/
structure Kept (state : Lives) : Prop where
  synced : state.Synced
  counted : state.Counted
  ordered : state.Ordered

theorem kept_initial : initial.Kept where
  synced := by constructor <;> simp [initial]
  counted := by constructor <;> simp [initial, Accepting.pointer?]
  ordered := ordered_initial

theorem Kept.alive (kept : state.Kept) (held : state.Held pointer) :
    state.alive pointer = true :=
  (kept.counted.alive pointer).mpr held

/-- One holder is dropped, of a connection that was alive. -/
theorem Kept.release (synced : state.Synced) (ordered : state.Ordered)
    (lives : state.alive pointer = true)
    (others : ∀ other, other ≠ pointer → (state.alive other = true ↔ state.Held other))
    (below : ∀ other, state.alive other = true → other < state.allocated) :
    (state.release pointer).Kept where
  synced := synced.release lives
  counted := Counted.release lives others below
  ordered := ordered.release pointer

/-- A connection whose event is handled is alive, and so is one whose event is still to be
handled. -/
theorem Kept.alive_of_event (kept : state.Kept) (event : pointer ∈ state.point.events) :
    state.alive pointer = true := by
  have ready : pointer ∈ state.point.ready → state.alive pointer = true := by
    intro isReady
    rcases (kept.ordered.ready pointer isReady).1 with inSet | queued
    · exact kept.alive (.inl inSet)
    · exact kept.alive (.inr (.inr (.inl queued)))
  cases point : state.point with
  | handling first rest =>
      rw [point] at event
      rcases List.mem_cons.mp event with rfl | later
      · rcases kept.ordered.guarded pointer rest point with ⟨guards, -⟩ | ⟨-, -, queued⟩
        · exact kept.alive (.inr (.inr (.inr (.inr guards))))
        · exact kept.alive (.inr (.inr (.inl queued)))
      · exact ready (by rw [point]; exact later)
  | dispatching rest => exact ready (by rw [point] at event ⊢; exact event)
  | waiting | draining _ | freeing =>
      rw [point] at event
      cases event

/-- A connection that was just made. -/
theorem Kept.made (kept : state.Kept) {fd : Nat} (free : state.accepting = .outside)
    (isFree : ∀ pointer < state.allocated, state.alive pointer = true → state.fd pointer ≠ fd) :
    ({ state with
        allocated := state.allocated + 1
        fd := Function.update state.fd state.allocated fd
        reading := Function.update state.reading state.allocated false
        writing := Function.update state.writing state.allocated false
        added := Function.update state.added state.allocated false
        tied := Function.update state.tied state.allocated false
        closed := Function.update state.closed state.allocated false
        alive := Function.update state.alive state.allocated true
        accepting := .created state.allocated } : Lives).Kept := by
  have older : ∀ pointer, state.alive pointer = true → pointer ≠ state.allocated :=
    fun pointer lives => (kept.counted.below pointer lives).ne
  refine ⟨⟨?_, ?_, ?_, kept.synced.working⟩, ⟨?_, ?_⟩, ?_⟩
  · intro other interest entry
    obtain ⟨lives, isFd, added⟩ := kept.synced.entry other interest entry
    simp [Function.update_of_ne (older _ lives), lives, isFd, added]
  · intro pointer lives added
    by_cases same : pointer = state.allocated
    · subst same
      simp at added
    · simp only [Function.update_of_ne same] at lives added ⊢
      exact kept.synced.entered pointer lives added
  · have below := kept.counted.below
    have distinct := kept.synced.distinct
    grind [Function.update_apply]
  · have counts := kept.counted.alive
    have below := kept.counted.below
    intro pointer
    grind [Function.update_apply, Accepting.pointer?]
  · intro pointer lives
    have below := kept.counted.below pointer
    grind [Function.update_apply]
  · exact kept.ordered.accept
      (fun pointer held => kept.counted.below pointer (kept.alive held)) fd

theorem Kept.accept (kept : state.Kept) {fd : Nat}
    (step : Lives.next state (.accept fd) = some after) : after.Kept := by
  rw [Lives.next] at step
  split at step
  · rename_i free
    cases step
    exact kept.made free.1 free.2
  · cases step

theorem Kept.insert (kept : state.Kept) (onTime : ¬state.Overtaken)
    (step : Lives.next state .insert = some after) : after.Kept := by
  have counts := kept.counted.alive
  have below := kept.counted.below
  obtain ⟨entry, entered, distinct, working⟩ := kept.synced
  rw [Lives.next] at step
  split at step
  · rename_i pointer created outside
    cases step
    have isOpen : state.closed pointer = false := by
      by_contra closed
      exact onTime ⟨pointer, by rw [created]; rfl, by simpa using closed, .inr created⟩
    refine ⟨⟨entry, entered, distinct, working⟩, ⟨?_, below⟩,
      kept.ordered.insert created outside isOpen⟩
    intro other
    grind [Accepting.pointer?]
  · cases step

theorem Kept.start (kept : state.Kept)
    (step : Lives.next state .start = some after) : after.Kept := by
  have counts := kept.counted.alive
  have below := kept.counted.below
  obtain ⟨entry, entered, distinct, working⟩ := kept.synced
  rw [Lives.next] at step
  split at step
  · rename_i pointer inserted
    cases step
    refine ⟨⟨entry, entered, distinct, working⟩, ⟨?_, below⟩, ?_⟩
    · intro other
      grind [Accepting.pointer?, push, LifeTask.pointer]
    · exact (kept.ordered.start inserted).push (by simp)
  · cases step

theorem Kept.accepted (kept : state.Kept)
    (step : Lives.next state .accepted = some after) : after.Kept := by
  have counts := kept.counted.alive
  have below := kept.counted.below
  obtain ⟨entry, entered, distinct, working⟩ := kept.synced
  rw [Lives.next] at step
  split at step
  · rename_i pointer started
    cases step
    have lives : state.alive pointer = true := kept.alive (.inr (.inl (by rw [started]; rfl)))
    refine Kept.release ⟨entry, entered, distinct, working⟩ kept.ordered.outside
      lives ?_ below
    intro other differs
    grind [Accepting.pointer?]
  · cases step

theorem Kept.poll (kept : state.Kept) (onTime : ¬state.Overtaken) {fds : List Nat}
    (step : Lives.next state (.poll fds) = some after) : after.Kept := by
  have counts := kept.counted.alive
  have below := kept.counted.below
  obtain ⟨entry, entered, distinct, working⟩ := kept.synced
  rw [Lives.next] at step
  split at step
  · rename_i waits
    cases step
    exact ⟨⟨entry, entered, distinct, working⟩, ⟨counts, below⟩,
      kept.ordered.poll kept.synced kept.counted onTime waits.1 waits.2.1⟩
  · cases step

theorem Kept.dispatch (kept : state.Kept)
    (step : Lives.next state .dispatch = some after) : after.Kept := by
  have counts := kept.counted.alive
  have below := kept.counted.below
  obtain ⟨entry, entered, distinct, working⟩ := kept.synced
  rw [Lives.next] at step
  split at step
  · rename_i pointer ready dispatching
    split at step
    · rename_i lives
      cases step
      refine ⟨⟨entry, entered, distinct, working⟩, ⟨?_, below⟩,
        kept.ordered.dispatch dispatching⟩
      have free := kept.ordered.unguarded (by simp [dispatching])
      intro other
      grind
    · cases step
  · cases step

theorem Kept.setWriting (kept : state.Kept) {writing : Bool}
    (step : Lives.next state (.setWriting writing) = some after) : after.Kept := by
  rw [Lives.next] at step
  split at step
  · rename_i pointer ready handling free
    cases step
    have lives : state.alive pointer = true :=
      kept.alive_of_event (by rw [handling]; exact List.mem_cons_self)
    refine ⟨kept.synced.setEvents lives _ _, kept.counted.setEvents _ _, ?_⟩
    refine kept.ordered.setEvents ?_ ?_ _ _
    · have apart := kept.ordered.apart
      rw [handling] at apart ⊢
      exact (List.nodup_cons.mp apart).1
    · exact (kept.ordered.guarded pointer ready handling).imp And.right fun known => known.2.1
  · cases step

theorem Kept.close (kept : state.Kept)
    (step : Lives.next state .close = some after) : after.Kept := by
  rw [Lives.next] at step
  split at step
  · rename_i pointer ready handling free
    cases step
    have lives : state.alive pointer = true :=
      kept.alive_of_event (by rw [handling]; exact List.mem_cons_self)
    exact ⟨kept.synced.handleClose lives, kept.counted.handleClose,
      kept.ordered.close handling free⟩
  · cases step

theorem Kept.failBody (kept : state.Kept) (step : Lives.next state .failBody = some after) :
    after.Kept := by
  have counts := kept.counted.alive
  have below := kept.counted.below
  obtain ⟨entry, entered, distinct, working⟩ := kept.synced
  rw [Lives.next] at step
  split at step
  · rename_i pointer ready handling free
    cases step
    have lives : state.alive pointer = true :=
      kept.alive_of_event (by rw [handling]; exact List.mem_cons_self)
    refine ⟨⟨entry, entered, distinct, working⟩, ⟨?_, below⟩, kept.ordered.push (by simp)⟩
    intro other
    grind [push, LifeTask.pointer]
  · cases step

theorem Kept.erase (kept : state.Kept)
    (step : Lives.next state .erase = some after) : after.Kept := by
  have counts := kept.counted.alive
  have below := kept.counted.below
  obtain ⟨entry, entered, distinct, working⟩ := kept.synced
  rw [Lives.next] at step
  split at step
  · rename_i pointer erasing outside
    cases step
    have lives : state.alive pointer = true := by
      rcases (kept.ordered.erasing pointer erasing).2 with ⟨_, -, guards⟩ | ⟨_, -, taken⟩
      · exact kept.alive (.inr (.inr (.inr (.inr guards))))
      · exact kept.alive (.inr (.inr (.inr (.inl ⟨_, taken, rfl⟩))))
    refine Kept.release ⟨entry, entered, distinct, working⟩
      (kept.ordered.erase erasing outside) lives ?_ below
    intro other differs
    grind
  · cases step

theorem Kept.handled (kept : state.Kept)
    (step : Lives.next state .handled = some after) : after.Kept := by
  have counts := kept.counted.alive
  have below := kept.counted.below
  obtain ⟨entry, entered, distinct, working⟩ := kept.synced
  rw [Lives.next] at step
  split at step
  · rename_i pointer ready handling free
    cases step
    have lives : state.alive pointer = true :=
      kept.alive_of_event (by rw [handling]; exact List.mem_cons_self)
    refine Kept.release ⟨entry, entered, distinct, working⟩
      (kept.ordered.handled handling free) lives ?_ below
    have guarded := kept.ordered.guarded pointer ready handling
    intro other differs
    grind
  · cases step

theorem Kept.expire (kept : state.Kept)
    (step : Lives.next state (.expire pointer) = some after) : after.Kept := by
  have counts := kept.counted.alive
  have below := kept.counted.below
  obtain ⟨entry, entered, distinct, working⟩ := kept.synced
  rw [Lives.next] at step
  split at step
  · split at step
    · cases step
      refine ⟨⟨entry, entered, distinct, working⟩, ⟨?_, below⟩,
        kept.ordered.push (by simp)⟩
      intro other
      grind [push, LifeTask.pointer]
    · cases step
  · cases step

theorem Kept.swap (kept : state.Kept)
    (step : Lives.next state .swap = some after) : after.Kept := by
  have counts := kept.counted.alive
  have below := kept.counted.below
  obtain ⟨entry, entered, distinct, working⟩ := kept.synced
  rw [Lives.next] at step
  split at step
  · rename_i dispatching
    cases step
    refine ⟨⟨entry, entered, distinct, working⟩, ⟨?_, below⟩, kept.ordered.swap dispatching⟩
    have empty := kept.ordered.empty
    intro other
    grind
  · cases step

theorem Kept.call (kept : state.Kept)
    (step : Lives.next state .call = some after) : after.Kept := by
  have counts := kept.counted.alive
  have below := kept.counted.below
  obtain ⟨entry, entered, distinct, working⟩ := kept.synced
  rw [Lives.next] at step
  split at step
  · rename_i task rest draining free
    cases step
    have lives : state.alive task.pointer = true := by
      refine kept.alive (.inr (.inr (.inr (.inl ⟨task, kept.ordered.part task ?_, rfl⟩))))
      rw [draining]
      exact List.mem_cons_self
    have synced : ({ state with point := .draining rest } : Lives).Synced :=
      ⟨entry, entered, distinct, working⟩
    have counted : ({ state with point := .draining rest } : Lives).Counted := ⟨counts, below⟩
    exact ⟨synced.perform lives, counted.perform, kept.ordered.call draining free⟩
  · cases step

theorem Kept.drained (kept : state.Kept)
    (step : Lives.next state .drained = some after) : after.Kept := by
  have counts := kept.counted.alive
  have below := kept.counted.below
  obtain ⟨entry, entered, distinct, working⟩ := kept.synced
  rw [Lives.next] at step
  split at step
  · rename_i draining free
    cases step
    exact ⟨⟨entry, entered, distinct, working⟩, ⟨counts, below⟩,
      kept.ordered.drained draining free⟩
  · cases step

theorem Kept.free (kept : state.Kept)
    (step : Lives.next state .free = some after) : after.Kept := by
  have counts := kept.counted.alive
  have below := kept.counted.below
  obtain ⟨entry, entered, distinct, working⟩ := kept.synced
  rw [Lives.next] at step
  split at step
  · rename_i task batch freeing taken
    cases step
    have lives : state.alive task.pointer = true := by
      refine kept.alive (.inr (.inr (.inr (.inl ⟨task, ?_, rfl⟩))))
      rw [taken]
      exact List.mem_cons_self
    refine Kept.release ⟨entry, entered, distinct, working⟩
      (kept.ordered.free freeing taken) lives ?_ below
    intro other differs
    grind
  · cases step

theorem Kept.leave (kept : state.Kept)
    (step : Lives.next state .leave = some after) : after.Kept := by
  have counts := kept.counted.alive
  have below := kept.counted.below
  obtain ⟨entry, entered, distinct, working⟩ := kept.synced
  rw [Lives.next] at step
  split at step
  · rename_i done
    cases step
    exact ⟨⟨entry, entered, distinct, working⟩, ⟨counts, below⟩,
      kept.ordered.leave done.1 done.2⟩
  · cases step

theorem Kept.lock (kept : state.Kept)
    (step : Lives.next state .lock = some after) : after.Kept := by
  have counts := kept.counted.alive
  have below := kept.counted.below
  obtain ⟨entry, entered, distinct, working⟩ := kept.synced
  rw [Lives.next] at step
  split at step
  · cases step
    refine ⟨⟨entry, entered, distinct, working⟩, ⟨counts, below⟩,
      kept.ordered.stops ?_ (by simp)⟩
    rintro rest ⟨rfl⟩
    exact ⟨subset_rfl, fun _ member outside => absurd member outside⟩
  · cases step

theorem Kept.forceClose (kept : state.Kept)
    (step : Lives.next state (.forceClose pointer) = some after) : after.Kept := by
  have counts := kept.counted.alive
  have below := kept.counted.below
  obtain ⟨entry, entered, distinct, working⟩ := kept.synced
  rw [Lives.next] at step
  split at step
  · rename_i rest pushing
    split at step
    · rename_i member
      cases step
      obtain ⟨part, told⟩ := kept.ordered.pushing rest pushing
      have lives := kept.alive (.inl (part member))
      refine ⟨⟨entry, entered, distinct, working⟩, ⟨?_, below⟩, ?_⟩
      · intro other
        grind [push, LifeTask.pointer]
      · have pushed : (state.push (.close pointer)).Ordered := kept.ordered.push (by simp)
        refine pushed.stops ?_ (by simp)
        rintro others ⟨rfl⟩
        refine ⟨(Finset.erase_subset _ _).trans part, fun other inSet outside => ?_⟩
        by_cases same : other = pointer
        · subst same
          exact .inl (by simp [push])
        · have before := told other inSet (fun inRest =>
            outside (Finset.mem_erase.mpr ⟨same, inRest⟩))
          exact before.imp_left (fun queued => List.mem_append_left _ queued)
    · cases step
  · cases step

theorem Kept.clear (kept : state.Kept)
    (step : Lives.next state .clear = some after) : after.Kept := by
  have counts := kept.counted.alive
  have below := kept.counted.below
  obtain ⟨entry, entered, distinct, working⟩ := kept.synced
  rw [Lives.next] at step
  split at step
  · rename_i pushed
    cases step
    refine ⟨⟨entry, entered, distinct, working⟩, ⟨counts, below⟩,
      kept.ordered.stops (by simp) ?_⟩
    exact fun _ pointer member =>
      (kept.ordered.pushing ∅ pushed).2 pointer member (Finset.notMem_empty pointer)
  · cases step

theorem Kept.drop (kept : state.Kept)
    (step : Lives.next state (.drop pointer) = some after) : after.Kept := by
  have counts := kept.counted.alive
  have below := kept.counted.below
  obtain ⟨entry, entered, distinct, working⟩ := kept.synced
  rw [Lives.next] at step
  split at step
  · rename_i clears
    cases step
    have lives := kept.alive (.inl clears.2)
    refine Kept.release ⟨entry, entered, distinct, working⟩
      (kept.ordered.drop clears.1 clears.2) lives ?_ below
    intro other differs
    grind
  · cases step

theorem Kept.unlock (kept : state.Kept)
    (step : Lives.next state .unlock = some after) : after.Kept := by
  have counts := kept.counted.alive
  have below := kept.counted.below
  obtain ⟨entry, entered, distinct, working⟩ := kept.synced
  rw [Lives.next] at step
  split at step
  · cases step
    exact ⟨⟨entry, entered, distinct, working⟩, ⟨counts, below⟩,
      kept.ordered.stops (by simp) (by simp)⟩
  · cases step

theorem Kept.next (kept : state.Kept) (onTime : ¬state.Overtaken) {action : LifeAction}
    (step : Lives.next state action = some after) : after.Kept := by
  cases action with
  | accept fd => exact kept.accept step
  | insert => exact kept.insert onTime step
  | start => exact kept.start step
  | accepted => exact kept.accepted step
  | poll fds => exact kept.poll onTime step
  | dispatch => exact kept.dispatch step
  | setWriting writing => exact kept.setWriting step
  | close => exact kept.close step
  | failBody => exact kept.failBody step
  | erase => exact kept.erase step
  | handled => exact kept.handled step
  | expire pointer => exact kept.expire step
  | swap => exact kept.swap step
  | call => exact kept.call step
  | drained => exact kept.drained step
  | free => exact kept.free step
  | leave => exact kept.leave step
  | lock => exact kept.lock step
  | forceClose pointer => exact kept.forceClose step
  | clear => exact kept.clear step
  | drop pointer => exact kept.drop step
  | unlock => exact kept.unlock step

/-- As long as no connection is closed, and put into `epoll`, while `OnNewConnection` still holds it,
or closed before it is in the set, the pointer of every event leads to a living connection, and no
call of `epoll_ctl` fails: `epoll` has exactly the living connections that count themselves in, with
the events they ask for.  And when the loop waits, with no task and no new connection, the living
connections are the ones in the set, and none of them is closed. -/
theorem events_reach_living_connections {target : Lives}
    (reachable : ReachableUnder next (fun state _ => ¬state.Overtaken) initial target) :
    (∀ pointer ∈ target.point.events, target.alive pointer = true) ∧ target.failures = 0 ∧
      (∀ fd interest, target.epoll fd = some interest ↔
        target.alive interest.pointer = true ∧ target.added interest.pointer = true ∧
          target.fd interest.pointer = fd ∧
          target.reading interest.pointer = interest.reading ∧
          target.writing interest.pointer = interest.writing) ∧
      (target.point = .waiting → target.pending = [] → target.accepting = .outside →
        ∀ pointer, (target.alive pointer = true ↔ pointer ∈ target.connections) ∧
          (target.alive pointer = true → target.closed pointer = false)) := by
  have kept : target.Kept := reachable.invariant Kept kept_initial
    fun _ _ _ before onTime step => before.next onTime step
  refine ⟨fun _ event => kept.alive_of_event event, kept.synced.working, ?_, ?_⟩
  · intro fd interest
    constructor
    · intro entry
      obtain ⟨alive, isFd, added⟩ := kept.synced.entry fd interest entry
      have entered := kept.synced.entered _ alive added
      rw [isFd, entry, Option.some.injEq] at entered
      exact ⟨alive, added, isFd, by rw [entered], by rw [entered]⟩
    · rintro ⟨alive, added, rfl, reads, writes⟩
      rw [kept.synced.entered _ alive added, reads, writes]
  · intro waiting noTask noneNew pointer
    have idle : target.batch = [] ∧ target.guard = none ∧ target.erasing = none := by
      refine ⟨?_, kept.ordered.unguarded (by simp [waiting]), ?_⟩
      · simpa [waiting] using kept.ordered.empty
      · cases erasing : target.erasing with
        | none => rfl
        | some other => simpa [waiting] using (kept.ordered.erasing other erasing).2
    have inSet : target.alive pointer = true ↔ pointer ∈ target.connections := by
      rw [kept.counted.alive pointer]
      simp [noTask, noneNew, idle, Accepting.pointer?]
    refine ⟨inSet, fun alive => ?_⟩
    by_contra closed
    have erasing := kept.ordered.connected pointer (inSet.mp alive) (by simpa using closed)
    rw [idle.2.2] at erasing
    cases erasing

/-- The event of one connection closes it, and the event of another one is next. -/
theorem events_reach_living_connections_two :
    ∃ target, ReachableUnder next (fun state _ => ¬state.Overtaken) initial target ∧
      (target.point = .dispatching [1] ∧ target.alive 0 = false ∧ target.epoll 5 = none) ∧
      (∀ pointer ∈ target.point.events, target.alive pointer = true) ∧ target.failures = 0 := by
  have performed : ∃ target, ReachableUnder next (fun state _ => ¬state.Overtaken) initial target ∧
      decide (target.point = .dispatching [1] ∧ target.alive 0 = false ∧
        target.epoll 5 = none) = true :=
    exists_reachableUnder_of_run (fun (state : Lives) _ => !decide state.Overtaken) (by simp)
      (fun target : Lives => decide (target.point = .dispatching [1] ∧ target.alive 0 = false ∧
        target.epoll 5 = none))
      (by decide : (run (fun (state : Lives) action =>
          if !decide state.Overtaken then next state action else none) initial
        [.accept 5, .insert, .start, .accepted, .accept 6, .insert, .start, .accepted, .poll [],
          .swap, .call, .call, .drained, .free, .free, .leave, .poll [5, 6], .dispatch, .close,
          .erase, .handled]).any (fun target : Lives => decide (target.point = .dispatching [1] ∧
            target.alive 0 = false ∧ target.epoll 5 = none)) = true)
  obtain ⟨target, reachable, reached⟩ := performed
  have living := events_reach_living_connections reachable
  exact ⟨target, reachable, of_decide_eq_true reached, living.1, living.2.1⟩

/-- A connection is closed, and put back by its write callback, while `OnNewConnection` holds it; and
it returns between `epoll_wait` and the handling of the event. -/
example : (run next initial [.accept 5, .insert, .start, .poll [], .swap, .call, .drained, .free,
    .leave, .poll [5], .dispatch, .close, .erase, .setWriting false, .handled, .swap, .drained,
    .leave, .poll [5], .accepted]).map (fun state => (state.point, state.alive 0)) =
      some (.dispatching [0], false) := by
  decide

end Lives

end MiniS3.Net
