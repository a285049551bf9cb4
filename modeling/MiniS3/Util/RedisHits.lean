import Mathlib
import MiniS3.Lib.Transition
import MiniS3.Util.RedisSocket

/-!
# Cache hits

A value or nil that `Get` returns is the answer that Redis gave to this very command, as long as
no reply to an earlier command is taken for it.

A socket that stays open after a call has no part of a command on its way, or nothing arrives on
it any more.  The replies that are left unread on it are another matter: `PING` can fail without
closing the socket, and an exception of `std::stoi` leaves `Get` past all the calls of `Close`.
What is unread then does harm if it begins as a bulk string.
-/

namespace MiniS3.RedisCache

open Lib.Transition

namespace Setup

variable {setup : Setup}

/-! ## Connecting -/

/-- An open socket on which Redis has answered all, and all has been read. -/
structure Fresh (world : World) : Prop where
  connected : world.connected = true
  aligned : Aligned world
  unread : world.unread = []

theorem handshake_spec {wanted : Bool} {args : List Bytes} {world after : World}
    {result : Result Unit} (fresh : Fresh world) (other : args.head? ≠ some (ascii "GET"))
    (shaken : setup.handshake wanted args world = (result, after)) :
    Keeps world after ∧ (result = .ok () → Fresh after) ∧
      (result ≠ .ok () → after.connected = false) := by
  unfold handshake at shaken
  split at shaken
  · cases sent : setup.sendCommandExpectOk args world with
    | mk answer last =>
        obtain ⟨middle, bytes, delivered, took, isLine⟩ :=
          sendCommandExpectOk_spec fresh.aligned sent
        have keeps := keeps_of_took delivered took
        rw [sent] at shaken
        cases answer with
        | error status =>
            cases shaken
            exact ⟨keeps.close, (fun succeeded => nomatch succeeded), fun _ => rfl⟩
        | ok =>
            cases shaken
            obtain ⟨line, isLine⟩ := isLine rfl
            have connected := took.connected.trans (delivered.connected.trans fresh.connected)
            exact ⟨keeps, fun _ => ⟨connected, keeps.aligned connected,
              unread_of_ok delivered fresh.unread other isLine⟩, fun failed => absurd rfl failed⟩
  · cases shaken
    exact ⟨⟨fun _ => fresh.aligned, List.prefix_rfl⟩, fun _ => fresh,
      fun failed => absurd rfl failed⟩

/-- Redis answers `PING` without the mark of bulk strings, and the size of every bulk string that
it sends is an `int`. -/
structure Quiet (redis : Redis) : Prop where
  ping : ∀ index, 36 ∉ (redis.answer index [ascii "PING"]).spell
  bulk : ∀ index command payload, redis.answer index command = .bulk payload →
    payload.length < 2 ^ 31

theorem ping_spec {world after : World} {result : Result Unit} (fresh : Fresh world)
    (sent : setup.sendCommandExpectOk [ascii "PING"] world = (result, after)) :
    Keeps world after ∧ (result = .ok () → Fresh after) ∧
      (Quiet setup.redis → Harmless after.unread) := by
  obtain ⟨middle, bytes, delivered, took, isLine⟩ := sendCommandExpectOk_spec fresh.aligned sent
  have keeps := keeps_of_took delivered took
  have connected := took.connected.trans (delivered.connected.trans fresh.connected)
  refine ⟨keeps, fun succeeded => ?_, fun quiet => ?_⟩
  · obtain ⟨line, isLine⟩ := isLine succeeded
    exact ⟨connected, keeps.aligned connected,
      unread_of_ok delivered fresh.unread (by decide) isLine⟩
  · refine harmless_of_not_mem fun member => ?_
    have inReplies : 36 ∈ middle.unread := took.unread ▸ List.mem_append_right bytes member
    rcases delivered.unread with same | answered
    · rw [same, fresh.unread] at inReplies
      cases inReplies
    · rw [answered, fresh.unread] at inReplies
      exact quiet.ping _ inReplies

/-- What `Connect` leaves behind: an open socket is aligned, after a success there is nothing to
read on it, and what a quiet Redis may have left on it is harmless. -/
structure Connects (setup : Setup) (before after : World) (result : Result Unit) : Prop where
  keeps : Keeps before after
  fresh : result = .ok () → Fresh after
  harmless : Quiet setup.redis → after.connected = true → Harmless after.unread

theorem connects_of_closed {before after : World} {status : Status}
    (keeps : Keeps before after) (closed : after.connected = false) :
    Connects setup before after (.error status) :=
  ⟨keeps, (fun succeeded => nomatch succeeded), fun _ connected => by
    rw [closed] at connected
    cases connected⟩

theorem connect_spec {world after : World} {result : Result Unit}
    (connecting : setup.connect world = (result, after)) : Connects setup world after result := by
  simp only [connect, attempt] at connecting
  split at connecting
  · rename_i first equal
    cases connecting
    obtain ⟨-, rfl⟩ := Prod.mk.inj equal
    exact connects_of_closed ⟨(fun connected => nomatch connected), List.prefix_rfl⟩ rfl
  · rename_i first equal
    obtain ⟨-, rfl⟩ := Prod.mk.inj equal
    split at connecting
    · rename_i second equal
      cases connecting
      obtain ⟨-, rfl⟩ := Prod.mk.inj equal
      exact connects_of_closed ⟨(fun connected => nomatch connected), List.prefix_rfl⟩ rfl
    · rename_i second equal
      obtain ⟨-, rfl⟩ := Prod.mk.inj equal
      split at connecting
      · rename_i third equal
        cases connecting
        obtain ⟨-, rfl⟩ := Prod.mk.inj equal
        exact connects_of_closed ⟨(fun connected => nomatch connected), List.prefix_rfl⟩ rfl
      · rename_i third equal
        have log : third.log = world.log := by rw [← (Prod.mk.inj equal).2]; rfl
        have fresh : Fresh third := by
          rw [← (Prod.mk.inj equal).2]
          exact ⟨rfl, .inr rfl, rfl⟩
        clear equal
        have opened : Keeps world third := ⟨fun _ => fresh.aligned, by rw [log]⟩
        split at connecting
        · rename_i status authed shaken
          cases connecting
          obtain ⟨keeps, -, closed⟩ := handshake_spec fresh (by simp [ascii]) shaken
          exact connects_of_closed (opened.trans keeps) (closed (by simp))
        · rename_i authed shaken
          obtain ⟨keeps, freshAuth, -⟩ := handshake_spec fresh (by simp [ascii]) shaken
          have opened := opened.trans keeps
          split at connecting
          · rename_i status selected shaken
            cases connecting
            obtain ⟨keeps, -, closed⟩ := handshake_spec (freshAuth rfl) (by simp [ascii]) shaken
            exact connects_of_closed (opened.trans keeps) (closed (by simp))
          · rename_i selected shaken
            obtain ⟨keeps, freshSelect, -⟩ :=
              handshake_spec (freshAuth rfl) (by simp [ascii]) shaken
            obtain ⟨keepsPing, freshPing, harmless⟩ := ping_spec (freshSelect rfl) connecting
            exact ⟨(opened.trans keeps).trans keepsPing, freshPing, fun quiet _ => harmless quiet⟩

/-! ## The calls of the cache -/

/-- Between two calls an open socket is aligned, and what a quiet Redis has left on it is
harmless. -/
structure Standing (setup : Setup) (world : World) : Prop where
  aligned : world.connected = true → Aligned world
  harmless : Quiet setup.redis → world.connected = true → Harmless world.unread

theorem standing_of_closed {world : World} (closed : world.connected = false) :
    Standing setup world := by
  constructor
  · intro connected
    rw [closed] at connected
    cases connected
  · intro _ connected
    rw [closed] at connected
    cases connected

theorem standing_start : Standing setup .start :=
  standing_of_closed rfl

theorem Connects.standing {before after : World} {result : Result Unit}
    (connects : Connects setup before after result) : Standing setup after :=
  ⟨connects.keeps.aligned, connects.harmless⟩

theorem ensureConnected_spec {world after : World} {result : Result Unit}
    (standing : Standing setup world) (ensured : setup.ensureConnected world = (result, after)) :
    Standing setup after ∧ world.log <+: after.log ∧
      (result = .ok () → Fresh after ∨ world.connected = true ∧ after = world) := by
  unfold ensureConnected at ensured
  split at ensured
  · rename_i connected
    cases ensured
    exact ⟨standing, List.prefix_rfl, fun _ => .inr ⟨connected, rfl⟩⟩
  · have connects := connect_spec ensured
    exact ⟨connects.standing, connects.keeps.log, fun succeeded => .inl (connects.fresh succeeded)⟩

/-- Where `EnsureConnected` succeeds, the socket is open. -/
theorem open_of_ensured {world after : World} (standing : Standing setup world)
    (ensured : setup.ensureConnected world = (.ok (), after)) :
    Standing setup after ∧ after.connected = true := by
  obtain ⟨standingAfter, -, connected⟩ := ensureConnected_spec standing ensured
  refine ⟨standingAfter, ?_⟩
  rcases connected rfl with fresh | ⟨connected, rfl⟩
  · exact fresh.connected
  · exact connected

theorem standing_init {world : World} (standing : Standing setup world) :
    Standing setup (setup.init world).2 := by
  unfold init
  split
  · exact (connect_spec (rfl : setup.connect world = _)).standing
  · exact standing

/-- A call that expects a status takes one line off the replies. -/
theorem standing_update {args : List Bytes} {world : World} (standing : Standing setup world)
    (other : args.head? ≠ some (ascii "GET")) : Standing setup (setup.update args world).2 := by
  unfold update
  split
  · split
    · rename_i status last ensured
      exact (ensureConnected_spec standing ensured).1
    · rename_i last ensured
      obtain ⟨standingLast, connected⟩ := open_of_ensured standing ensured
      split
      · exact standing_of_closed rfl
      · rename_i final sent
        obtain ⟨middle, bytes, delivered, took, isLine⟩ :=
          sendCommandExpectOk_spec (standingLast.aligned connected) sent
        refine ⟨(keeps_of_took delivered took).aligned, fun quiet _ => ?_⟩
        obtain ⟨line, isLine⟩ := isLine rfl
        have harmless := standingLast.harmless quiet connected
        have isOneLine := isLine_of_answers
          (setup.redis.answers last.log.length args) other
        rcases delivered.unread with same | answered
        · exact (same ▸ harmless).after_line isLine
        · exact (answered ▸ harmless.append isOneLine).after_line isLine
  · exact standing

/-- Where nothing unread begins as a bulk string, a bulk string that comes is the answer. -/
theorem Delivered.own {args : List Bytes} {before after : World}
    (delivered : Delivered setup args before after) (clean : before.unread.head? ≠ some 36)
    (marked : after.unread.head? = some 36) :
    after.unread = (setup.redis.answer before.log.length args).spell ∧
      after.log = before.log ++ [⟨args, setup.redis.answer before.log.length args⟩] := by
  cases delivered with
  | lost _ _ unread =>
      rw [unread] at marked
      exact absurd marked clean
  | answered _ _ unread log =>
      cases replies : before.unread with
      | nil =>
          rw [replies, List.nil_append] at unread
          exact ⟨unread, log⟩
      | cons first rest =>
          rw [unread, replies] at marked
          rw [replies] at clean
          exact absurd marked clean

/-- The value is the answer of Redis to a `GET` of the key that it has received after everything
it had received before. -/
def Own (key : Bytes) (value : Option Bytes) (before after : World) : Prop :=
  ∃ earlier answer, before.log <+: earlier ∧
    after.log = earlier ++ [⟨[ascii "GET", key], answer⟩] ∧ answer.value? = some value

/-- Replies are taken for the answer only if they are. -/
theorem sendCommandGetBulk_own {key : Bytes} {value : Option Bytes} {world after : World}
    (aligned : Aligned world) (clean : world.unread.head? ≠ some 36)
    (sent : setup.sendCommandGetBulk [ascii "GET", key] world = (some (.ok value), after)) :
    Own key value world after ∧ after.unread = [] := by
  obtain ⟨middle, bytes, delivered, took, takes⟩ := sendCommandGetBulk_spec aligned sent
  have takes : TakesBulk middle.unread value after.unread := takes
  obtain ⟨replies, log⟩ := delivered.own clean takes.head?
  rw [replies] at takes
  obtain ⟨isValue, nothing⟩ := takes.of_answer (setup.redis.answers _ _) rfl
  refine ⟨⟨_, _, List.prefix_rfl, ?_, isValue⟩, nothing⟩
  rw [took.log, log]

/-- Only a bulk string whose size is no `int` throws. -/
theorem sendCommandGetBulk_thrown {key : Bytes} {world after : World} (aligned : Aligned world)
    (clean : world.unread.head? ≠ some 36)
    (sent : setup.sendCommandGetBulk [ascii "GET", key] world = (none, after)) :
    ¬Quiet setup.redis := by
  intro quiet
  obtain ⟨middle, bytes, delivered, took, size, rest, isLine, noSize⟩ :=
    sendCommandGetBulk_spec aligned sent
  obtain ⟨replies, -⟩ := delivered.own clean (head?_of_firstLine isLine rfl)
  rw [replies] at isLine
  have answers := setup.redis.answers world.log.length [ascii "GET", key]
  have small := quiet.bulk world.log.length [ascii "GET", key]
  have marked := head?_of_firstLine isLine rfl
  cases isAnswer : setup.redis.answer world.log.length [ascii "GET", key] with
  | status line =>
      rw [isAnswer] at answers
      exact absurd rfl answers
  | integer value =>
      rw [isAnswer] at answers
      exact absurd rfl answers
  | error line =>
      rw [isAnswer] at marked
      cases marked
  | bulk payload =>
      rw [isAnswer, firstLine_bulk] at isLine
      cases isLine
      rw [stoi_ofNat, if_pos (small payload isAnswer)] at noSize
      cases noSize
  | nil =>
      rw [isAnswer, firstLine_nil] at isLine
      cases isLine
      cases noSize

/-- `Get` finds the answer to its own command, unless something that begins as a bulk string is
unread on the open socket. -/
theorem get_own {key : Bytes} {value : Option Bytes} {world : World}
    (enabled : setup.config.enabled = true) (standing : Standing setup world)
    (clean : world.connected = true → world.unread.head? ≠ some 36)
    (hit : (setup.get key world).1 = some (.ok value)) :
    Own key value world (setup.get key world).2 := by
  unfold get at hit ⊢
  rw [if_pos enabled] at hit ⊢
  cases ensured : setup.ensureConnected world with
  | mk result last =>
      obtain ⟨-, log, connected⟩ := ensureConnected_spec standing ensured
      rw [ensured] at hit
      cases result with
      | error status => cases hit
      | ok =>
          have ready : Aligned last ∧ last.unread.head? ≠ some 36 := by
            rcases connected rfl with fresh | ⟨connected, rfl⟩
            · exact ⟨fresh.aligned, by rw [fresh.unread]; nofun⟩
            · exact ⟨standing.aligned connected, clean connected⟩
          cases sent : setup.sendCommandGetBulk [ascii "GET", key] last with
          | mk answer after =>
              simp only [sent] at hit ⊢
              match answer, hit with
              | some (.ok _), rfl =>
                  obtain ⟨⟨earlier, reply, before, own⟩, -⟩ :=
                    sendCommandGetBulk_own ready.1 ready.2 sent
                  exact ⟨earlier, reply, log.trans before, own⟩

theorem standing_get {key : Bytes} {world : World} (standing : Standing setup world) :
    Standing setup (setup.get key world).2 := by
  unfold get
  split
  · split
    · rename_i status last ensured
      exact (ensureConnected_spec standing ensured).1
    · rename_i last ensured
      obtain ⟨standingLast, connected⟩ := open_of_ensured standing ensured
      have aligned := standingLast.aligned connected
      cases sent : setup.sendCommandGetBulk [ascii "GET", key] last with
      | mk answer after =>
          obtain ⟨middle, bytes, delivered, took, -⟩ := sendCommandGetBulk_spec aligned sent
          have kept := (keeps_of_took delivered took).aligned
          rcases answer with _ | (status | value)
          · refine ⟨kept, fun quiet _ => ?_⟩
            have clean := (standingLast.harmless quiet connected).head?
            exact absurd quiet (sendCommandGetBulk_thrown aligned clean sent)
          · exact standing_of_closed rfl
          · refine ⟨kept, fun quiet _ => ?_⟩
            have clean := (standingLast.harmless quiet connected).head?
            obtain ⟨-, nothing⟩ := sendCommandGetBulk_own aligned clean sent
            exact nothing ▸ harmless_nil
  · exact standing

/-! ## Runs -/

/-- A call of the cache. -/
inductive Call
  | init
  | get (key : Bytes)
  | setEx (key : Bytes) (ttlSeconds : Int) (value : Bytes)
  | del (key : Bytes)

/-- One call after the other. -/
def next (setup : Setup) : Step World Call := fun world call =>
  some (match call with
    | .init => (setup.init world).2
    | .get key => (setup.get key world).2
    | .setEx key ttlSeconds value => (setup.setEx key ttlSeconds value world).2
    | .del key => (setup.del key world).2)

/-- One call keeps the socket as the next one needs it. -/
theorem standing_next {world after : World} {call : Call} (standing : Standing setup world)
    (step : setup.next world call = some after) : Standing setup after := by
  cases step
  cases call with
  | init => exact standing_init standing
  | get key => exact standing_get standing
  | setEx key ttlSeconds value => exact standing_update standing (by simp [ascii])
  | del key => exact standing_update standing (by simp [ascii])

theorem standing_of_visits {calls : List Call} {world : World}
    (visited : Visits setup.next .start calls world) : Standing setup world :=
  visited.invariant (Standing setup) standing_start fun _ _ _ standing _ step =>
    standing_next standing step

/-- Whenever a `Get` among the calls returns a value or nil, it is the answer to this `Get`. -/
def HitsAreOwn (setup : Setup) (calls : List Call) : Prop :=
  ∀ world key value, Takes setup.next .start calls world (.get key) →
    (setup.get key world).1 = some (.ok value) → Own key value world (setup.get key world).2

/-- No `Get` among the calls starts on an open socket with something unread on it that begins as
a bulk string. -/
def GetsAreClean (setup : Setup) (calls : List Call) : Prop :=
  ∀ world key, Takes setup.next .start calls world (.get key) → world.connected = true →
    world.unread.head? ≠ some 36

/-- With a quiet Redis every `Get` is clean. -/
theorem getsAreClean_of_quiet (quiet : Quiet setup.redis) (calls : List Call) :
    GetsAreClean setup calls := by
  intro world key taken connected
  exact ((standing_of_visits taken.visits).harmless quiet connected).head?

end Setup

/-- A hit of an enabled cache is the answer to its own question in every run whose `Get` calls
find no bulk string that is not theirs; with a quiet Redis, in every run. -/
theorem hits_are_own (setup : Setup) (enabled : setup.config.enabled = true) :
    (∀ calls, setup.GetsAreClean calls → setup.HitsAreOwn calls) ∧
      (Setup.Quiet setup.redis → ∀ calls, setup.HitsAreOwn calls) := by
  have clean : ∀ calls, setup.GetsAreClean calls → setup.HitsAreOwn calls := by
    intro calls getsAreClean world key value taken hit
    exact Setup.get_own enabled (Setup.standing_of_visits taken.visits)
      (getsAreClean world key taken) hit
  exact ⟨clean, fun quiet calls => clean calls (Setup.getsAreClean_of_quiet quiet calls)⟩

/-- Redis with one value under every key, and one status for all other commands. -/
def oneValue (status : LineText) : Redis where
  answer _ command :=
    if command.head? = some (ascii "GET") then .bulk (ascii "value") else .status status
  answers _ command := by
    split
    · assumption
    · assumption

/-- A client of such a Redis, one of whose system calls may fail. -/
def oneFailure (status : LineText) (failing : Option Nat) : Setup where
  config := ⟨true, [], 0⟩
  redis := oneValue status
  outcome call := ⟨false, if failing = some call then none else some 100⟩

theorem quiet_oneValue {status : LineText} (noMark : 36 ∉ status.text) :
    Setup.Quiet (oneValue status) where
  ping _ := by
    have spelled : (Answer.status status).spell = 43 :: (status.text ++ [13, 10]) := rfl
    simp [oneValue, ascii, spelled, noMark]
  bulk _ command payload isBulk := by
    simp only [oneValue] at isBulk
    split at isBulk
    · cases isBulk
      decide
    · cases isBulk

/-- The second `Get` connects again after the first has failed, and has the value. -/
theorem hits_are_own_again :
    (oneFailure ⟨ascii "PONG", by decide, by decide⟩ (some 15)).config.enabled = true ∧
      (∃ world, Takes (oneFailure ⟨ascii "PONG", by decide, by decide⟩ (some 15)).next .start
          [.init, .get (ascii "key"), .get (ascii "key")] world (.get (ascii "key")) ∧
        ((oneFailure ⟨ascii "PONG", by decide, by decide⟩ (some 15)).get (ascii "key") world).1 =
          some (.ok (some (ascii "value")))) ∧
      (oneFailure ⟨ascii "PONG", by decide, by decide⟩ (some 15)).HitsAreOwn
        [.init, .get (ascii "key"), .get (ascii "key")] :=
  ⟨rfl, ⟨_, ⟨[.init, .get (ascii "key")], by simp, rfl⟩, by decide +kernel⟩,
    (hits_are_own (oneFailure ⟨ascii "PONG", by decide, by decide⟩ (some 15)) rfl).2
      (quiet_oneValue (by decide)) [.init, .get (ascii "key"), .get (ascii "key")]⟩

/-- `PING` times out in its reply, and `Get` takes the rest of the reply for its own. -/
theorem not_hits_are_own : ¬∀ (setup : Setup) (calls : List Setup.Call),
    setup.config.enabled = true → setup.HitsAreOwn calls := by
  intro all
  let late := oneFailure ⟨ascii "$-1", by decide, by decide⟩ (some 5)
  let world := (late.init .start).2
  have hit : (late.get (ascii "key") world).1 = some (.ok none) := by decide +kernel
  have taken : Takes late.next .start [.init, .get (ascii "key")] world (.get (ascii "key")) :=
    ⟨[.init], by simp, rfl⟩
  obtain ⟨earlier, answer, -, log, isNil⟩ :=
    all late [.init, .get (ascii "key")] rfl world (ascii "key") none taken hit
  have value : (late.get (ascii "key") world).2.log.getLast?.bind (·.answer.value?) =
      some (some (ascii "value")) := by decide +kernel
  rw [log, List.getLast?_concat, Option.bind_some, isNil] at value
  cases value

end MiniS3.RedisCache
