import MiniS3.Util.RedisCache

/-!
# The socket to Redis

A command that is sent on a socket is answered once, at the end of what is unread there, or the
connection is lost and nothing comes of it.  What is read is taken off the replies from the front.
So each command of the client is described by the replies before it, the answer, and how much of
the two it has read.
-/

namespace MiniS3.RedisCache

open Lib

/-! ## Redis receives -/

namespace Redis

variable (redis : Redis)

/-- Redis has no complete command that it has not answered. -/
def Waiting (world : World) : Prop :=
  Resp.readCommand world.received = none

theorem waiting_of_received {world : World} (received : world.received = []) : Waiting world := by
  rw [Waiting, received]
  rfl

theorem receive_of_none {bytes : Bytes} {world : World}
    (incomplete : Resp.readCommand (world.received ++ bytes) = none) :
    redis.receive bytes world = { world with received := world.received ++ bytes } := by
  have drained : Resp.decodeCommands (world.received ++ bytes) = ([], world.received ++ bytes) :=
    Lib.Reader.drain_of_none incomplete
  simp only [receive, drained, List.mapIdx_nil, List.flatMap_nil, List.append_nil]

theorem receive_nil {world : World} (waiting : Waiting world) : redis.receive [] world = world := by
  have nothing : Resp.readCommand (world.received ++ []) = none := by
    rw [List.append_nil]
    exact waiting
  rw [receive_of_none redis nothing, List.append_nil]

theorem waiting_receive (bytes : Bytes) (world : World) : Waiting (redis.receive bytes world) :=
  Resp.consumes_readCommand.read_drain (world.received ++ bytes)

/-- Bytes that come in two pieces are answered as if they came in one. -/
theorem receive_receive (first second : Bytes) (world : World) :
    redis.receive second (redis.receive first world) = redis.receive (first ++ second) world := by
  have pieces := Resp.stable_readCommand.drain_append Resp.consumes_readCommand
    (world.received ++ first) second
  rw [List.append_assoc] at pieces
  simp only [receive, Resp.decodeCommands, pieces, List.mapIdx_append, List.flatMap_append,
    List.append_assoc, List.length_append, List.length_mapIdx]
  simp only [Nat.add_comm, Nat.add_left_comm]

/-- A whole command is answered. -/
theorem receive_command {world : World} (received : world.received = []) (args : List Bytes) :
    redis.receive (Resp.buildRespCommand args) world =
      { world with
        unread := world.unread ++ (redis.answer world.log.length args).spell
        log := world.log ++ [⟨args, redis.answer world.log.length args⟩] } := by
  have spelled := Resp.areCommands_flatMap [args]
  rw [List.flatMap_singleton] at spelled
  have decoded := Resp.decodeCommands_of_areCommands spelled
  simp [receive, received, decoded]

/-- The beginning of a command is kept. -/
theorem receive_part {world : World} (received : world.received = []) {args : List Bytes}
    {count : Nat} (short : count < (Resp.buildRespCommand args).length) :
    redis.receive ((Resp.buildRespCommand args).take count) world =
      { world with received := (Resp.buildRespCommand args).take count } := by
  have whole := Resp.reads_command args _ [] (Resp.isCommand_buildRespCommand args)
  rw [List.append_nil] at whole
  have incomplete : Resp.readCommand ((Resp.buildRespCommand args).take count) = none := by
    rw [← List.take_append_drop count (Resp.buildRespCommand args)] at whole
    refine Resp.stable_readCommand.none_of_prefix whole ?_
    rw [Ne, List.drop_eq_nil_iff]
    omega
  rw [receive_of_none redis (by rw [received]; exact incomplete), received, List.nil_append]

end Redis

/-! ## The client sends -/

namespace Setup

variable {setup : Setup}

theorem sendAllWithin_of_lost {turns : Nat} {data : Bytes} {world : World}
    (lost : world.lost = true) :
    ∃ calls, (setup.sendAllWithin turns data world).2 = { world with calls := calls } := by
  induction turns generalizing data world with
  | zero => cases data <;> exact ⟨world.calls, rfl⟩
  | succ turns inductionHypothesis =>
      cases data with
      | nil => exact ⟨world.calls, rfl⟩
      | cons first data =>
          have observed : setup.observe world = { world with calls := world.calls + 1 } := by
            simp [observe, lost]
          cases outcome : (setup.outcome world.calls).more with
          | none =>
              refine ⟨world.calls + 1, ?_⟩
              simp [sendAllWithin, send, outcome, observed, lost]
          | some more =>
              simp only [sendAllWithin, send, outcome, observed]
              rw [if_pos lost]
              exact inductionHypothesis lost

/-- Redis receives the data, or a beginning of it if the connection is lost. -/
theorem sendAllWithin_spec {turns : Nat} {data : Bytes} {world : World}
    (waiting : Redis.Waiting world) (enough : data.length ≤ turns) :
    ∃ count calls lost, (setup.sendAllWithin turns data world).2 =
        { setup.redis.receive (data.take count) world with calls := calls, lost := lost } ∧
      (lost = true ∨ data.length ≤ count) := by
  induction turns generalizing data world with
  | zero =>
      obtain rfl : data = [] := List.length_eq_zero_iff.mp (by omega)
      refine ⟨0, world.calls, world.lost, ?_, .inr (Nat.le_refl _)⟩
      rw [List.take_nil, Redis.receive_nil _ waiting]
      rfl
  | succ turns inductionHypothesis =>
      cases data with
      | nil =>
          refine ⟨0, world.calls, world.lost, ?_, .inr (Nat.le_refl _)⟩
          rw [List.take_nil, Redis.receive_nil _ waiting]
          rfl
      | cons first data =>
          cases outcome : (setup.outcome world.calls).more with
          | none =>
              refine ⟨0, world.calls + 1, true, ?_, .inl rfl⟩
              rw [List.take_zero, Redis.receive_nil _ waiting]
              simp [sendAllWithin, send, outcome, observe]
          | some more =>
              simp only [sendAllWithin, send, outcome]
              cases isLost : (setup.observe world).lost with
              | true =>
                  rw [if_pos rfl]
                  obtain ⟨calls, after⟩ := sendAllWithin_of_lost isLost
                  refine ⟨0, calls, true, ?_, .inl rfl⟩
                  rw [after, List.take_zero, Redis.receive_nil _ waiting, ← isLost]
                  rfl
              | false =>
                  rw [if_neg (by decide)]
                  obtain ⟨count, calls, lost, after, complete⟩ :=
                    @inductionHypothesis ((first :: data).drop (min (more + 1) (data.length + 1)))
                      (setup.redis.receive
                        ((first :: data).take (min (more + 1) (data.length + 1)))
                        (setup.observe world))
                      (Redis.waiting_receive _ _ _) (by grind)
                  refine ⟨min (more + 1) (data.length + 1) + count, calls, lost, ?_, ?_⟩
                  · rw [Redis.receive_receive, ← List.take_add] at after
                    exact after
                  · rw [List.length_drop, List.length_cons] at complete
                    rw [List.length_cons]
                    exact complete.imp_right fun reached => by omega

/-- A command has been sent: nothing comes of it if the connection is lost, and otherwise Redis
answers it. -/
inductive Delivered (setup : Setup) (args : List Bytes) (before after : World) : Prop
  | lost : after.connected = before.connected → after.lost = true →
      after.unread = before.unread → after.log = before.log → Delivered setup args before after
  | answered : after.connected = before.connected → after.received = [] →
      after.unread =
        before.unread ++ (setup.redis.answer before.log.length args).spell →
      after.log = before.log ++ [⟨args, setup.redis.answer before.log.length args⟩] →
      Delivered setup args before after

/-- Redis is between two commands of the socket, or it gets no more from it. -/
def Aligned (world : World) : Prop :=
  world.lost = true ∨ world.received = []

theorem delivered_sendAll {args : List Bytes} {world : World} (aligned : Aligned world) :
    Delivered setup args world (setup.sendAll (Resp.buildRespCommand args) world).2 := by
  rcases aligned with lost | received
  · obtain ⟨calls, after⟩ := @sendAllWithin_of_lost setup _ _ _ lost
    rw [sendAll, after]
    exact .lost rfl lost rfl rfl
  · obtain ⟨count, calls, lost, after, complete⟩ := @sendAllWithin_spec setup _ _ _
      (Redis.waiting_of_received received) (Nat.le_refl (Resp.buildRespCommand args).length)
    rw [sendAll, after]
    by_cases whole : (Resp.buildRespCommand args).length ≤ count
    · rw [List.take_of_length_le whole, Redis.receive_command _ received]
      exact .answered rfl received rfl rfl
    · rw [Redis.receive_part _ received (Nat.not_le.mp whole)]
      exact .lost rfl (complete.resolve_right whole) rfl rfl

/-! ## The client reads -/

/-- Bytes of replies are read, and nothing else changes. -/
structure Took (before after : World) (bytes : Bytes) : Prop where
  connected : after.connected = before.connected
  received : after.received = before.received
  log : after.log = before.log
  unread : before.unread = bytes ++ after.unread
  lost : before.lost = true → after.lost = true

theorem Took.refl (world : World) : Took world world [] :=
  ⟨rfl, rfl, rfl, rfl, id⟩

theorem Took.trans {first second third : World} {one two : Bytes} (before : Took first second one)
    (after : Took second third two) : Took first third (one ++ two) where
  connected := after.connected.trans before.connected
  received := after.received.trans before.received
  log := after.log.trans before.log
  unread := by rw [before.unread, after.unread, List.append_assoc]
  lost := after.lost ∘ before.lost

theorem Took.aligned {before after : World} {bytes : Bytes} (took : Took before after bytes)
    (aligned : Aligned before) : Aligned after :=
  aligned.imp took.lost took.received.trans

theorem took_recv (len : Nat) (world : World) :
    Took world (setup.recv len world).2 ((setup.recv len world).1.getD []) ∧
      ((setup.recv len world).1.getD []).length ≤ len := by
  have observed : Took world (setup.observe world) [] :=
    ⟨rfl, rfl, rfl, rfl, fun lost => by simp [observe, lost]⟩
  unfold recv
  split
  · exact ⟨observed, Nat.zero_le len⟩
  · rename_i more _
    split
    · exact ⟨observed, Nat.zero_le len⟩
    · refine ⟨⟨rfl, rfl, rfl, (List.take_append_drop _ _).symm, observed.lost⟩, ?_⟩
      exact (List.length_take_le _ _).trans (Nat.min_le_right _ _)

/-- A line that is read is the next line of the replies. -/
theorem readLineWithin_spec {turns : Nat} {prev : UInt8} {line : Bytes} {world after : World}
    {result : Option Bytes}
    (read : setup.readLineWithin turns prev line world = (result, after)) :
    (∃ bytes, Took world after bytes) ∧
      ∀ cut, result = some cut → takeLine prev line world.unread = some (cut, after.unread) := by
  induction turns generalizing prev line world with
  | zero =>
      cases read
      exact ⟨⟨[], .refl _⟩, fun _ isSome => nomatch isSome⟩
  | succ turns inductionHypothesis =>
      rw [readLineWithin] at read
      have taken := (@took_recv setup 1 world).1
      split at read
      · rename_i ch middle received
        rw [received] at taken
        have next : world.unread = ch :: middle.unread := taken.unread
        rw [next]
        by_cases ends : prev = 13 ∧ ch = 10
        · rw [if_pos ends] at read
          cases read
          refine ⟨⟨_, taken⟩, fun cut isCut => ?_⟩
          cases isCut
          rw [takeLine, if_pos ends]
        · rw [if_neg ends] at read
          obtain ⟨⟨bytes, later⟩, isLine⟩ := inductionHypothesis read
          refine ⟨⟨_, taken.trans later⟩, fun cut isCut => ?_⟩
          rw [takeLine, if_neg ends]
          exact isLine cut isCut
      · rename_i middle received
        cases read
        rw [received] at taken
        exact ⟨⟨_, taken⟩, fun _ isSome => nomatch isSome⟩

theorem readLine_spec {world after : World} {result : Option Bytes}
    (read : setup.readLine world = (result, after)) :
    (∃ bytes, Took world after bytes) ∧
      ∀ line, result = some line → firstLine world.unread = some (line, after.unread) :=
  readLineWithin_spec read

theorem readExactWithin_spec {turns missing : Nat} {out : Bytes} {world after : World}
    {result : Option Bytes}
    (read : setup.readExactWithin turns missing out world = (result, after)) :
    ∃ bytes, Took world after bytes ∧
      ∀ whole, result = some whole → whole = out ++ bytes ∧ bytes.length = missing := by
  induction turns generalizing missing out world with
  | zero =>
      cases missing with
      | zero =>
          cases read
          refine ⟨[], .refl _, fun whole isWhole => ?_⟩
          cases isWhole
          exact ⟨(List.append_nil out).symm, rfl⟩
      | succ missing =>
          cases read
          exact ⟨[], .refl _, fun _ isSome => nomatch isSome⟩
  | succ turns inductionHypothesis =>
      cases missing with
      | zero =>
          cases read
          refine ⟨[], .refl _, fun whole isWhole => ?_⟩
          cases isWhole
          exact ⟨(List.append_nil out).symm, rfl⟩
      | succ missing =>
          simp only [readExactWithin] at read
          obtain ⟨taken, fits⟩ := @took_recv setup (missing + 1) world
          split at read
          · rename_i middle received
            cases read
            rw [received] at taken
            exact ⟨_, taken, fun _ isSome => nomatch isSome⟩
          · rename_i first middle received
            rw [received] at taken fits
            obtain ⟨bytes, later, isWhole⟩ := inductionHypothesis read
            refine ⟨_, taken.trans later, fun whole isSome => ?_⟩
            obtain ⟨rfl, length⟩ := isWhole whole isSome
            refine ⟨by simp, ?_⟩
            rw [Option.getD_some] at fits
            rw [Option.getD_some, List.length_append]
            omega

theorem readExact_spec {len : Nat} {world after : World} {result : Option Bytes}
    (read : setup.readExact len world = (result, after)) :
    ∃ bytes, Took world after bytes ∧
      ∀ whole, result = some whole → whole = bytes ∧ bytes.length = len :=
  readExactWithin_spec read

/-! ## Commands -/

theorem sendCommandExpectOk_spec {args : List Bytes} {world after : World} {result : Result Unit}
    (aligned : Aligned world) (sent : setup.sendCommandExpectOk args world = (result, after)) :
    ∃ middle bytes, Delivered setup args world middle ∧ Took middle after bytes ∧
      (result = .ok () → ∃ line, firstLine middle.unread = some (line, after.unread)) := by
  have delivered := @delivered_sendAll setup args world aligned
  unfold sendCommandExpectOk at sent
  split at sent
  · rename_i middle sending
    rw [sending] at delivered
    cases sent
    exact ⟨_, [], delivered, .refl _, fun succeeded => nomatch succeeded⟩
  · rename_i middle sending
    rw [sending] at delivered
    cases read : setup.readLine middle with
    | mk answer last =>
        obtain ⟨⟨bytes, took⟩, isLine⟩ := readLine_spec read
        rw [read] at sent
        refine ⟨middle, bytes, delivered, ?_⟩
        split at sent
        · rename_i equal
          cases equal
          cases sent
          exact ⟨took, fun succeeded => nomatch succeeded⟩
        · rename_i equal
          cases equal
          cases sent
          exact ⟨took, fun succeeded => nomatch succeeded⟩
        · rename_i equal
          cases equal
          split at sent
          · cases sent
            exact ⟨took, fun _ => ⟨_, isLine _ rfl⟩⟩
          · split at sent
            · cases sent
              exact ⟨took, fun succeeded => nomatch succeeded⟩
            · cases sent
              exact ⟨took, fun succeeded => nomatch succeeded⟩

/-- What the replies have to do with the result of `SendCommandGetBulk`: a value has been taken
off them, and an exception comes from a size that is no `int`. -/
def GetsBulk (replies left : Bytes) : Option (Result (Option Bytes)) → Prop
  | some (.ok value) => TakesBulk replies value left
  | some (.error _) => True
  | none => ∃ size rest, firstLine replies = some (36 :: size, rest) ∧ Bytes.stoi size = none

theorem sendCommandGetBulk_spec {args : List Bytes} {world after : World}
    {result : Option (Result (Option Bytes))} (aligned : Aligned world)
    (sent : setup.sendCommandGetBulk args world = (result, after)) :
    ∃ middle bytes, Delivered setup args world middle ∧ Took middle after bytes ∧
      GetsBulk middle.unread after.unread result := by
  have delivered := @delivered_sendAll setup args world aligned
  unfold sendCommandGetBulk at sent
  split at sent
  · rename_i middle sending
    rw [sending] at delivered
    cases sent
    exact ⟨_, [], delivered, .refl _, trivial⟩
  · rename_i middle sending
    rw [sending] at delivered
    cases read : setup.readLine middle with
    | mk answer last =>
        obtain ⟨⟨bytes, took⟩, isLine⟩ := readLine_spec read
        rw [read] at sent
        split at sent
        · rename_i equal
          cases equal
          cases sent
          exact ⟨middle, bytes, delivered, took, trivial⟩
        · rename_i equal
          cases equal
          cases sent
          exact ⟨middle, bytes, delivered, took, trivial⟩
        · rename_i type size _ equal
          cases equal
          have line := isLine _ rfl
          split at sent
          · rename_i isBulk
            cases isBulk
            split at sent
            · rename_i noSize
              cases sent
              exact ⟨middle, bytes, delivered, took, size, _, line, noSize⟩
            · rename_i len isSize
              split at sent
              · rename_i negative
                cases sent
                exact ⟨middle, bytes, delivered, took, .nil line isSize negative⟩
              · rename_i positive
                cases readPayload : setup.readExact len.toNat last with
                | mk payload later =>
                    obtain ⟨payloadBytes, tookPayload, isPayload⟩ := readExact_spec readPayload
                    rw [readPayload] at sent
                    cases payload with
                    | none =>
                        cases sent
                        exact ⟨middle, _, delivered, took.trans tookPayload, trivial⟩
                    | some payload =>
                        obtain ⟨rfl, length⟩ := isPayload _ rfl
                        cases readEnding : setup.readExact 2 later with
                        | mk ending final =>
                            obtain ⟨endingBytes, tookEnding, isEnding⟩ :=
                              readExact_spec readEnding
                            simp only [readEnding] at sent
                            have tookAll := (took.trans tookPayload).trans tookEnding
                            cases ending with
                            | none =>
                                cases sent
                                exact ⟨middle, _, delivered, tookAll, trivial⟩
                            | some ending =>
                                obtain ⟨rfl, two⟩ := isEnding _ rfl
                                cases sent
                                rw [tookPayload.unread, tookEnding.unread] at line
                                exact ⟨middle, _, delivered, tookAll,
                                  .bulk line isSize (Int.not_lt.mp positive) length two⟩
          · split at sent
            · cases sent
              exact ⟨middle, bytes, delivered, took, trivial⟩
            · cases sent
              exact ⟨middle, bytes, delivered, took, trivial⟩

/-! ## What a call leaves behind -/

theorem Delivered.connected {args : List Bytes} {before after : World}
    (delivered : Delivered setup args before after) : after.connected = before.connected := by
  cases delivered with
  | lost connected => exact connected
  | answered connected => exact connected

theorem Delivered.aligned {args : List Bytes} {before after : World}
    (delivered : Delivered setup args before after) : Aligned after := by
  cases delivered with
  | lost _ lost => exact .inl lost
  | answered _ received => exact .inr received

theorem Delivered.log {args : List Bytes} {before after : World}
    (delivered : Delivered setup args before after) : before.log <+: after.log := by
  cases delivered with
  | lost _ _ _ log => rw [log]
  | answered _ _ _ log => exact ⟨_, log.symm⟩

/-- The replies are those that were unread, and perhaps the answer to the command. -/
theorem Delivered.unread {args : List Bytes} {before after : World}
    (delivered : Delivered setup args before after) :
    after.unread = before.unread ∨
      after.unread = before.unread ++ (setup.redis.answer before.log.length args).spell := by
  cases delivered with
  | lost _ _ unread => exact .inl unread
  | answered _ _ unread => exact .inr unread

/-- What every call of the client keeps: the socket is aligned, and Redis forgets nothing. -/
structure Keeps (before after : World) : Prop where
  aligned : after.connected = true → Aligned after
  log : before.log <+: after.log

theorem Keeps.trans {first second third : World} (one : Keeps first second)
    (two : Keeps second third) : Keeps first third :=
  ⟨two.aligned, one.log.trans two.log⟩

theorem Keeps.close {before after : World} (keeps : Keeps before after) :
    Keeps before after.close :=
  ⟨(fun connected => nomatch connected), keeps.log⟩

theorem keeps_of_took {args : List Bytes} {before middle after : World} {bytes : Bytes}
    (delivered : Delivered setup args before middle) (took : Took middle after bytes) :
    Keeps before after :=
  ⟨fun _ => took.aligned delivered.aligned, took.log ▸ delivered.log⟩

/-- On a socket with nothing to read, a command that is not a `GET` leaves nothing to read. -/
theorem unread_of_ok {args : List Bytes} {before middle after : World}
    (delivered : Delivered setup args before middle) (unread : before.unread = [])
    (other : args.head? ≠ some (ascii "GET")) {line : Bytes}
    (isLine : firstLine middle.unread = some (line, after.unread)) : after.unread = [] := by
  rcases delivered.unread with same | answered
  · rw [same, unread] at isLine
    cases isLine
  · rw [answered, unread, List.nil_append] at isLine
    obtain ⟨whole, isWhole⟩ := (isLine_of_answers (setup.redis.answers _ _) other).firstLine
    rw [isWhole] at isLine
    exact (Prod.mk.inj (Option.some.inj isLine)).2.symm

end Setup

end MiniS3.RedisCache
