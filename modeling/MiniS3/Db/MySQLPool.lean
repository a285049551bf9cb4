import Mathlib.Data.Option.Basic
import Mathlib.Data.List.Basic
import MiniS3.Lib.Transition

/-!
# The connection pool

`MySQLPool` keeps idle connections in a queue.  A connection that is taken out is pinged,
and connected anew when it does not answer; one that is given back is pinged and replaced
likewise.  A connection that cannot be replaced is dropped, on the way out as on the way
back, and nothing ever adds one to the pool again.

A step is what one call does while it holds the mutex.  Whether a connection answers a
ping, and what becomes of an attempt to connect, is chosen with the step.
-/

namespace MiniS3.Db

open Lib Transition

/-- A `MySQLConnection` with its handle; there is none after a failed `Connect`. -/
structure MySQLConnection where
  handle : Option Nat
  deriving DecidableEq

/-- How the database behaves during a step: whether it answers the ping, and the handle of
a new connection, if there is one. -/
structure Database where
  answers : Bool
  connects : Option Nat
  deriving DecidableEq

namespace MySQLConnection

/-- `MySQLConnection::Ping`. -/
def ping (database : Database) (conn : MySQLConnection) : Bool :=
  conn.handle.isSome && database.answers

/-- `MySQLConnection::Connect`, of which the result is the connection if it succeeds. -/
def connect (database : Database) : Option MySQLConnection :=
  database.connects.map fun handle => ⟨some handle⟩

end MySQLConnection

/-- The pool, with the connections that callers hold. -/
structure MySQLPool where
  connections : List MySQLConnection
  checkedOut : List MySQLConnection
  closed : Bool
  activeCount : Int
  deriving DecidableEq

namespace MySQLPool

/-- `MySQLPool::Init`, where `attempts` are the handles that the calls of `Connect` get. -/
def init (poolSize : Int) (attempts : Nat → Option Nat) : Option MySQLPool :=
  ((List.range poolSize.toNat).mapM attempts).map fun handles =>
    ⟨handles.map fun handle => ⟨some handle⟩, [], false, 0⟩

/-- `MySQLPool::Close`. -/
def close (pool : MySQLPool) : MySQLPool :=
  { pool with connections := [], closed := true }

/-- The part of `GetConnection` after the wait. -/
def takeConnection (database : Database) (pool : MySQLPool) : Option MySQLConnection × MySQLPool :=
  match pool.connections with
  | [] => (none, pool)
  | conn :: rest =>
      if conn.ping database then
        (some conn, { pool with
          connections := rest, checkedOut := conn :: pool.checkedOut
          activeCount := pool.activeCount + 1 })
      else
        match MySQLConnection.connect database with
        | none => (none, { pool with connections := rest })
        | some conn =>
            (some conn, { pool with
              connections := rest, checkedOut := conn :: pool.checkedOut
              activeCount := pool.activeCount + 1 })

/-- `MySQLPool::GetConnection`.  The outer `none` is a caller that has to wait; with a
timeout the wait may end without a connection. -/
def getConnection (timeoutMs : Int) (database : Database) (pool : MySQLPool) :
    Option (Option MySQLConnection × MySQLPool) :=
  if pool.closed then some (none, pool)
  else if pool.connections = [] then
    if timeoutMs < 0 then none else some (none, pool)
  else some (takeConnection database pool)

/-- `MySQLPool::ReturnConnection`, of a connection that was checked out. -/
def returnConnection (database : Database) (conn : MySQLConnection) (pool : MySQLPool) :
    MySQLPool :=
  if pool.closed then { pool with checkedOut := pool.checkedOut.erase conn }
  else
    let kept := if conn.ping database then some conn else MySQLConnection.connect database
    { pool with
      connections := pool.connections ++ kept.toList
      checkedOut := pool.checkedOut.erase conn
      activeCount := pool.activeCount - 1 }

/-- What can happen to a pool. -/
inductive Action
  | get (timeoutMs : Int) (database : Database)
  | giveBack (conn : MySQLConnection) (database : Database)
  | close
  deriving DecidableEq

/-- One step; only a connection that is checked out can be given back. -/
def next : Step MySQLPool Action
  | pool, .get timeoutMs database => (getConnection timeoutMs database pool).map Prod.snd
  | pool, .giveBack conn database =>
      if conn ∈ pool.checkedOut then some (returnConnection database conn pool) else none
  | pool, .close => some pool.close

/-! ## What a pool should be -/

/-- The connections that the pool knows of. -/
def total (pool : MySQLPool) : Int :=
  pool.connections.length + pool.activeCount

/-- The pool has all its connections, and can still hand one out, now or once it is given
back. -/
structure Whole (poolSize : Int) (pool : MySQLPool) : Prop where
  size : pool.total = poolSize
  live : ¬(pool.checkedOut = [] ∧ pool.connections = [])

/-- The step drops a connection: the database neither answers the ping nor accepts a new
connection. -/
def loses (pool : MySQLPool) : Action → Bool
  | .get _ database => !pool.closed && database.connects.isNone &&
      pool.connections.head?.any fun conn => !conn.ping database
  | .giveBack conn database => !pool.closed && database.connects.isNone && !conn.ping database
  | .close => false

/-- Active connections are the ones that are checked out. -/
def Counted (pool : MySQLPool) : Prop :=
  pool.closed = false → pool.activeCount = pool.checkedOut.length

theorem length_mapM {α β : Type} {read : α → Option β} {items : List α} {results : List β}
    (mapped : items.mapM read = some results) : results.length = items.length := by
  induction items generalizing results with
  | nil =>
      cases mapped
      rfl
  | cons item items inductionHypothesis =>
      simp only [List.mapM_cons, Option.pure_def, Option.bind_eq_bind,
        Option.bind_eq_some_iff, Option.some.injEq] at mapped
      rcases mapped with ⟨result, -, others, rest, rfl⟩
      rw [List.length_cons, List.length_cons, inductionHypothesis rest]

theorem init_spec {poolSize : Int} {attempts : Nat → Option Nat} {pool : MySQLPool}
    (started : init poolSize attempts = some pool) :
    pool.connections.length = poolSize.toNat ∧ pool.checkedOut = [] ∧ pool.closed = false ∧
      pool.activeCount = 0 := by
  rcases Option.map_eq_some_iff.mp started with ⟨handles, mapped, rfl⟩
  have length := length_mapM mapped
  rw [List.length_range] at length
  exact ⟨by rw [List.length_map, length], rfl, rfl, rfl⟩

theorem whole_init {poolSize : Int} (positive : 1 ≤ poolSize) {attempts : Nat → Option Nat}
    {pool : MySQLPool} (started : init poolSize attempts = some pool) : pool.Whole poolSize := by
  rcases init_spec started with ⟨length, -, -, active⟩
  constructor
  · rw [total, length, active]
    omega
  · rintro ⟨-, none⟩
    rw [none, List.length_nil] at length
    omega

/-! ## One step -/

/-- What a step may do to an open pool: keep its connections, or drop one of them. -/
structure Keeps (pool after : MySQLPool) (lost : Bool) : Prop where
  counted : after.Counted
  total : after.total = pool.total - lost.toNat

theorem keeps_takeConnection {pool : MySQLPool} (isOpen : pool.closed = false)
    (counted : pool.Counted) (nonempty : pool.connections ≠ []) (timeoutMs : Int)
    (database : Database) :
    Keeps pool (takeConnection database pool).2 (pool.loses (.get timeoutMs database)) := by
  have active := counted isOpen
  rcases pool with ⟨_ | ⟨conn, rest⟩, checkedOut, closed, activeCount⟩
  · contradiction
  · simp only at isOpen active
    subst isOpen
    by_cases answers : conn.ping database = true
    · simp only [takeConnection, answers, if_true, loses]
      constructor
      · simp [Counted, active]
      · simp [total, answers]
        omega
    · cases connected : database.connects with
      | none =>
          simp only [takeConnection, answers, loses, MySQLConnection.connect, connected]
          constructor
          · simp [Counted, active]
          · simp [total, answers]
            omega
      | some handle =>
          simp only [takeConnection, answers, loses, MySQLConnection.connect, connected]
          constructor
          · simp [Counted, active]
          · simp [total]
            omega

theorem keeps_returnConnection {pool : MySQLPool} (isOpen : pool.closed = false)
    (counted : pool.Counted) {conn : MySQLConnection} (held : conn ∈ pool.checkedOut)
    (database : Database) :
    Keeps pool (returnConnection database conn pool) (pool.loses (.giveBack conn database)) := by
  have active := counted isOpen
  have remaining := List.length_erase_of_mem held
  have someHeld : 0 < pool.checkedOut.length := List.length_pos_of_mem held
  constructor
  · intro _
    simp only [returnConnection, isOpen, Bool.false_eq_true, if_false]
    omega
  · by_cases answers : conn.ping database = true
    · simp only [returnConnection, total, loses, isOpen, answers, Bool.false_eq_true, if_false,
        if_true, List.length_append, Option.toList_some, List.length_singleton, Bool.not_true,
        Bool.and_false, Bool.toNat_false]
      omega
    · cases connected : database.connects with
      | none =>
          simp only [returnConnection, total, loses, isOpen, answers, connected,
            MySQLConnection.connect, Bool.false_eq_true, if_false, Bool.not_false,
            List.length_append, Option.map_none, Option.toList_none, List.length_nil,
            Option.isNone_none, Bool.and_true, Bool.toNat_true]
          omega
      | some handle =>
          simp only [returnConnection, total, loses, isOpen, answers, connected,
            MySQLConnection.connect, Bool.false_eq_true, if_false, Bool.not_false,
            List.length_append, Option.map_some, Option.toList_some, List.length_singleton,
            Option.isNone_some, Bool.and_false, Bool.false_and, Bool.toNat_false]
          omega

/-- A step that leaves the pool open has found it open. -/
theorem keeps_next {pool after : MySQLPool} {action : Action}
    (step : next pool action = some after) (counted : pool.Counted)
    (stays : after.closed = false) :
    pool.closed = false ∧ Keeps pool after (pool.loses action) := by
  cases action with
  | get timeoutMs database =>
      rcases Option.map_eq_some_iff.mp step with ⟨⟨taken, result⟩, got, rfl⟩
      unfold getConnection at got
      split at got
      · rename_i isClosed
        cases got
        rw [isClosed] at stays
        contradiction
      · rename_i isOpen
        rw [Bool.not_eq_true] at isOpen
        refine ⟨isOpen, ?_⟩
        split at got
        · rename_i queue
          split at got
          · cases got
          · cases got
            exact ⟨counted, by simp [loses, queue]⟩
        · rename_i nonempty
          have same : (takeConnection database pool).2 = result :=
            congrArg Prod.snd (Option.some.inj got)
          rw [← same]
          exact keeps_takeConnection isOpen counted nonempty timeoutMs database
  | giveBack conn database =>
      simp only [next] at step
      split at step
      · rename_i held
        cases step
        cases isOpen : pool.closed with
        | true => simp [returnConnection, isOpen] at stays
        | false => exact ⟨rfl, keeps_returnConnection isOpen counted held database⟩
      · cases step
  | close =>
      cases step
      cases stays

theorem closed_takeConnection (database : Database) (pool : MySQLPool) :
    (takeConnection database pool).2.closed = pool.closed := by
  unfold takeConnection
  split
  · rfl
  · split
    · rfl
    · split <;> rfl

/-- Only `Close` closes the pool. -/
theorem closed_next {pool after : MySQLPool} {action : Action}
    (step : next pool action = some after) (other : action ≠ .close) :
    after.closed = pool.closed := by
  cases action with
  | get timeoutMs database =>
      rcases Option.map_eq_some_iff.mp step with ⟨result, got, rfl⟩
      unfold getConnection at got
      split at got
      · cases got
        rfl
      · split at got
        · split at got
          · cases got
          · cases got
            rfl
        · rw [← Option.some.inj got]
          exact closed_takeConnection database pool
  | giveBack conn database =>
      simp only [next] at step
      split at step
      · cases step
        unfold returnConnection
        split <;> rfl
      · cases step
  | close => contradiction

/-- A step that loses a connection has found the pool open, and leaves it open. -/
theorem open_of_loses {pool after : MySQLPool} {action : Action}
    (step : next pool action = some after) (lost : pool.loses action = true) :
    after.closed = false := by
  cases action with
  | get timeoutMs database =>
      rw [closed_next step (by simp)]
      simp only [loses, Bool.and_eq_true, Bool.not_eq_true'] at lost
      exact lost.1.1
  | giveBack conn database =>
      rw [closed_next step (by simp)]
      simp only [loses, Bool.and_eq_true, Bool.not_eq_true'] at lost
      exact lost.1.1
  | close => cases lost

/-! ## Runs -/

theorem counted_init {poolSize : Int} {attempts : Nat → Option Nat} {pool : MySQLPool}
    (started : init poolSize attempts = some pool) : pool.Counted := by
  rcases init_spec started with ⟨-, noneOut, -, active⟩
  intro _
  rw [active, noneOut]
  rfl

theorem Counted.next {pool after : MySQLPool} {action : Action} (counted : pool.Counted)
    (step : next pool action = some after) : after.Counted := by
  intro stays
  exact (keeps_next step counted stays).2.counted stays

/-- An open pool that counts its connections can hand one out as long as there are any. -/
theorem Counted.live {pool : MySQLPool} (counted : pool.Counted) (isOpen : pool.closed = false)
    (some : 0 < pool.total) : ¬(pool.checkedOut = [] ∧ pool.connections = []) := by
  rintro ⟨noneOut, noneIn⟩
  have active := counted isOpen
  rw [total, active, noneOut, noneIn] at some
  contradiction

/-- What a run keeps that loses no connection. -/
structure Sound (poolSize : Int) (pool : MySQLPool) : Prop where
  counted : pool.Counted
  size : pool.closed = false → pool.total = poolSize

theorem Sound.next {poolSize : Int} {pool after : MySQLPool} {action : Action}
    (sound : pool.Sound poolSize) (kept : pool.loses action = false)
    (step : next pool action = some after) : after.Sound poolSize := by
  refine ⟨sound.counted.next step, fun stays => ?_⟩
  rcases keeps_next step sound.counted stays with ⟨isOpen, keeps⟩
  rw [keeps.total, kept, sound.size isOpen]
  exact Int.sub_zero poolSize

/-- A pool that has lost all its connections stays as it is: every caller waits, whatever
the database does. -/
theorem stuck_next {pool after : MySQLPool} (isOpen : pool.closed = false)
    (noneOut : pool.checkedOut = []) (noneIn : pool.connections = []) {action : Action}
    (step : next pool action = some after) :
    action = .close ∨ ∃ timeoutMs database, action = .get timeoutMs database ∧
      0 ≤ timeoutMs ∧ getConnection timeoutMs database pool = some (none, pool) ∧ after = pool := by
  cases action with
  | get timeoutMs database =>
      right
      rcases Option.map_eq_some_iff.mp step with ⟨result, got, rfl⟩
      unfold getConnection at got ⊢
      simp only [isOpen, noneIn, Bool.false_eq_true, if_false, if_true] at got ⊢
      split at got
      · cases got
      · rename_i waits
        cases got
        exact ⟨timeoutMs, database, rfl, by omega, if_neg waits, rfl⟩
  | giveBack conn database => simp [next, noneOut] at step
  | close => exact .inl rfl

/-- The pool is whole throughout a run exactly if no step of the run loses a connection. -/
theorem whole_iff_never_loses {poolSize : Int} (positive : 1 ≤ poolSize)
    {attempts : Nat → Option Nat} {pool target : MySQLPool}
    (started : init poolSize attempts = some pool) {actions : List Action}
    (performed : run next pool actions = some target) :
    (∀ state, Visits next pool actions state → state.closed = false → state.Whole poolSize) ↔
      ∀ state action, Takes next pool actions state action → state.loses action = false := by
  have initially : pool.Counted := counted_init started
  have counted (state : MySQLPool) (visited : Visits next pool actions state) : state.Counted :=
    visited.invariant Counted initially fun _ _ _ counted _ step => counted.next step
  constructor
  · intro whole state action taken
    rcases taken.target performed with ⟨after, step, reached⟩
    cases lost : state.loses action with
    | false => rfl
    | true =>
        have stays := open_of_loses step lost
        rcases keeps_next step (counted state taken.visits) stays with ⟨isOpen, keeps⟩
        have before := (whole state taken.visits isOpen).size
        have later := (whole after reached stays).size
        rw [keeps.total, lost, before] at later
        rw [Bool.toNat_true] at later
        omega
  · intro kept state visited isOpen
    have sound : state.Sound poolSize := by
      refine visited.invariant (Sound poolSize) ?_ fun _ _ _ sound taken step =>
        sound.next (kept _ _ taken) step
      exact ⟨initially, fun _ => (whole_init positive started).size⟩
    have size := sound.size isOpen
    exact ⟨size, sound.counted.live isOpen (by omega)⟩

/-- An outage that does not outlast a reconnect: the database has gone away, and is back
when the connection is replaced. -/
theorem whole_iff_never_loses_sample :
    run next ⟨[⟨some 0⟩], [], false, 0⟩
        [.get (-1) ⟨false, some 1⟩, .giveBack ⟨some 1⟩ ⟨true, none⟩] =
          some ⟨[⟨some 1⟩], [], false, 0⟩ ∧
      ∀ state, Visits next ⟨[⟨some 0⟩], [], false, 0⟩
        [.get (-1) ⟨false, some 1⟩, .giveBack ⟨some 1⟩ ⟨true, none⟩] state →
        state.closed = false → state.Whole 1 := by
  have started : init 1 some = some ⟨[⟨some 0⟩], [], false, 0⟩ := by decide
  have performed : run next ⟨[⟨some 0⟩], [], false, 0⟩
      [.get (-1) ⟨false, some 1⟩, .giveBack ⟨some 1⟩ ⟨true, none⟩] =
        some ⟨[⟨some 1⟩], [], false, 0⟩ := by decide
  refine ⟨performed, (whole_iff_never_loses (by decide) started performed).mpr ?_⟩
  intro state action taken
  rcases takes_cons.mp taken with ⟨rfl, rfl⟩ | ⟨middle, first, taken⟩
  · rfl
  · cases first
    rcases takes_cons.mp taken with ⟨rfl, rfl⟩ | ⟨last, -, taken⟩
    · rfl
    · exact absurd taken takes_nil

/-- The database is gone when the only connection is taken out, and every later caller waits
for a connection that nobody has. -/
theorem whole_pool_lost_in_outage :
    ¬∀ (poolSize : Int) (attempts : Nat → Option Nat) (pool target : MySQLPool)
      (actions : List Action), 1 ≤ poolSize → init poolSize attempts = some pool →
      run next pool actions = some target → target.closed = false → target.Whole poolSize := by
  intro whole
  have stuck := whole 1 some ⟨[⟨some 0⟩], [], false, 0⟩ ⟨[], [], false, 0⟩
    [.get (-1) ⟨false, none⟩] (by decide) (by decide) (by decide) rfl
  exact stuck.live ⟨rfl, rfl⟩

end MySQLPool

end MiniS3.Db
