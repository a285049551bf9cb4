import MiniS3.Util.RedisReplies
import MiniS3.Util.Status

/-!
# The cache client

`RedisCache` keeps one socket to Redis and matches replies to commands by their position on it:
it sends a command, and takes the first reply that comes for the reply to it.  A call that fails
closes the socket, and the next call connects again.

Redis answers the commands that it receives in order.  The system calls of the client move any
number of bytes or fail, and a reply that a failed `recv` has not waited for stays to be read.
-/

namespace MiniS3.RedisCache

open Lib

/-- Redis: what it answers to the commands it receives, in their order. -/
structure Redis where
  answer : Nat → List Bytes → Answer
  answers : ∀ index command, (answer index command).Answers command

/-- `RedisConfig`, as far as the client reads it. -/
structure RedisConfig where
  enabled : Bool
  password : Bytes
  db : Int

/-- How a system call of the client comes out. -/
structure Outcome where
  /-- The connection has been lost. -/
  lost : Bool
  /-- The call moves at most one byte more than this number, or it fails. -/
  more : Option Nat

/-- What the calls of a client depend on. -/
structure Setup where
  config : RedisConfig
  redis : Redis
  outcome : Nat → Outcome

/-- A command that Redis received, and its answer. -/
structure Exchange where
  command : List Bytes
  answer : Answer

/-- The client with its socket and Redis behind it. -/
structure World where
  /-- `sockfd_` is a socket. -/
  connected : Bool
  /-- Nothing that is sent on the socket arrives any more. -/
  lost : Bool
  /-- What Redis has of a command. -/
  received : Bytes
  /-- The replies of Redis that are still to be read. -/
  unread : Bytes
  /-- What Redis has been asked, on this socket and those before it. -/
  log : List Exchange
  /-- The number of system calls. -/
  calls : Nat

namespace World

/-- A new client. -/
def start : World :=
  ⟨false, false, [], [], [], 0⟩

/-- `RedisCache::Close`. -/
def close (world : World) : World :=
  { world with connected := false }

end World

namespace Redis

/-- Bytes come to Redis: it answers the commands that are complete now. -/
def receive (redis : Redis) (bytes : Bytes) (world : World) : World :=
  let commands := Resp.decodeCommands (world.received ++ bytes)
  let exchanges := commands.1.mapIdx fun index command =>
    (⟨command, redis.answer (index + world.log.length) command⟩ : Exchange)
  { world with
    received := commands.2
    unread := world.unread ++ exchanges.flatMap fun exchange => exchange.answer.spell
    log := world.log ++ exchanges }

end Redis

namespace Setup

variable (setup : Setup)

/-! ## System calls -/

/-- A system call takes place. -/
def observe (world : World) : World :=
  { world with
    lost := world.lost || (setup.outcome world.calls).lost
    calls := world.calls + 1 }

/-- `socket`, `inet_pton` and `connect`: the call is successful. -/
def attempt (world : World) : Bool × World :=
  ((setup.outcome world.calls).more.isSome, setup.observe world)

/-- `send`: the number of bytes that it takes.  It fails when the connection is lost, and it may
also take what will not arrive. -/
def send (data : Bytes) (world : World) : Option Nat × World :=
  let after := setup.observe world
  match (setup.outcome world.calls).more with
  | none => (none, { after with lost := true })
  | some more =>
      let sent := min (more + 1) data.length
      (some sent, if after.lost then after else setup.redis.receive (data.take sent) after)

/-- `recv`: the bytes that it reads, at most `len`.  It fails when no reply has come in time, or
when the connection is lost. -/
def recv (len : Nat) (world : World) : Option Bytes × World :=
  let after := setup.observe world
  match (setup.outcome world.calls).more with
  | none => (none, after)
  | some more =>
      if world.unread.isEmpty then (none, after)
      else
        let count := min (more + 1) len
        (some (world.unread.take count), { after with unread := world.unread.drop count })

/-! ## Sending and reading

The loops are given a number of turns.  Each turn moves a byte at least, so it is enough to have
as many as there are bytes. -/

def sendAllWithin : Nat → Bytes → World → Bool × World
  | _, [], world => (true, world)
  | 0, _ :: _, world => (false, world)
  | turns + 1, data, world =>
      match setup.send data world with
      | (none, world) => (false, world)
      | (some sent, world) => sendAllWithin turns (data.drop sent) world

/-- `RedisCache::SendAll`. -/
def sendAll (data : Bytes) (world : World) : Bool × World :=
  setup.sendAllWithin data.length data world

def readLineWithin : Nat → UInt8 → Bytes → World → Option Bytes × World
  | 0, _, _, world => (none, world)
  | turns + 1, prev, line, world =>
      match setup.recv 1 world with
      | (some [ch], world) =>
          let line := line ++ [ch]
          if prev = 13 ∧ ch = 10 then (some (line.take (line.length - 2)), world)
          else readLineWithin turns ch line world
      | (_, world) => (none, world)

/-- `RedisCache::ReadLine`. -/
def readLine (world : World) : Option Bytes × World :=
  setup.readLineWithin (world.unread.length + 1) 0 [] world

def readExactWithin : Nat → Nat → Bytes → World → Option Bytes × World
  | _, 0, out, world => (some out, world)
  | 0, _ + 1, _, world => (none, world)
  | turns + 1, missing, out, world =>
      match setup.recv missing world with
      | (none, world) => (none, world)
      | (some bytes, world) => readExactWithin turns (missing - bytes.length) (out ++ bytes) world

/-- `RedisCache::ReadExact`. -/
def readExact (len : Nat) (world : World) : Option Bytes × World :=
  setup.readExactWithin len len [] world

variable {setup} in
/-- A turn more makes no difference to `SendAll`. -/
theorem sendAllWithin_succ {turns : Nat} {data : Bytes} {world : World}
    (enough : data.length ≤ turns) :
    setup.sendAllWithin (turns + 1) data world = setup.sendAllWithin turns data world := by
  induction turns generalizing data world with
  | zero =>
      obtain rfl : data = [] := List.length_eq_zero_iff.mp (by omega)
      rfl
  | succ turns inductionHypothesis =>
      cases data with
      | nil => rfl
      | cons first data =>
          simp only [sendAllWithin, send]
          cases (setup.outcome world.calls).more with
          | none => rfl
          | some more =>
              refine inductionHypothesis ?_
              rw [List.length_drop, List.length_cons] at *
              omega

variable {setup} in
/-- A turn more makes no difference to `ReadLine`. -/
theorem readLineWithin_succ {turns : Nat} {prev : UInt8} {line : Bytes} {world : World}
    (enough : world.unread.length < turns) :
    setup.readLineWithin (turns + 1) prev line world =
      setup.readLineWithin turns prev line world := by
  induction turns generalizing prev line world with
  | zero => contradiction
  | succ turns inductionHypothesis =>
      unfold readLineWithin
      simp only [recv]
      cases (setup.outcome world.calls).more with
      | none => rfl
      | some more =>
          cases unread : world.unread with
          | nil => rfl
          | cons ch rest =>
              have one : min (more + 1) 1 = 1 := by omega
              simp only [List.isEmpty_cons, one, List.take_succ_cons, List.take_zero,
                List.drop_succ_cons, List.drop_zero, Bool.false_eq_true, if_false]
              by_cases ends : prev = 13 ∧ ch = 10
              · rw [if_pos ends, if_pos ends]
              · rw [if_neg ends, if_neg ends]
                refine inductionHypothesis ?_
                rw [unread, List.length_cons] at enough
                exact Nat.lt_of_succ_lt_succ enough

variable {setup} in
/-- A turn more makes no difference to `ReadExact`. -/
theorem readExactWithin_succ {turns missing : Nat} {out : Bytes} {world : World}
    (enough : missing ≤ turns) :
    setup.readExactWithin (turns + 1) missing out world =
      setup.readExactWithin turns missing out world := by
  induction turns generalizing missing out world with
  | zero =>
      obtain rfl : missing = 0 := by omega
      rfl
  | succ turns inductionHypothesis =>
      cases missing with
      | zero => rfl
      | succ missing =>
          simp only [readExactWithin, recv]
          cases (setup.outcome world.calls).more with
          | none => rfl
          | some more =>
              cases unread : world.unread with
              | nil => rfl
              | cons first rest =>
                  refine inductionHypothesis ?_
                  rw [List.length_take, List.length_cons]
                  omega

/-! ## Commands -/

/-- `RedisCache::SendCommandGetBulk`; `none` when `std::stoi` throws. -/
def sendCommandGetBulk (args : List Bytes) (world : World) :
    Option (Result (Option Bytes)) × World :=
  match setup.sendAll (Resp.buildRespCommand args) world with
  | (false, world) => (some (.err .ServiceUnavailable (ascii "Redis write failed")), world)
  | (true, world) =>
      match setup.readLine world with
      | (none, world) => (some (.err .ServiceUnavailable (ascii "Redis read failed")), world)
      | (some [], world) => (some (.err .ServiceUnavailable (ascii "Redis empty response")), world)
      | (some (type :: text), world) =>
          if type = 36 then
            match Bytes.stoi text with
            | none => (none, world)
            | some len =>
                if len < 0 then (some (.ok none), world)
                else
                  match setup.readExact len.toNat world with
                  | (none, world) =>
                      (some (.err .ServiceUnavailable (ascii "Redis bulk read failed")), world)
                  | (some payload, world) =>
                      match setup.readExact 2 world with
                      | (none, world) =>
                          (some (.err .ServiceUnavailable (ascii "Redis trailing CRLF missing")),
                            world)
                      | (some _, world) => (some (.ok (some payload)), world)
          else if type = 45 then
            (some (.err .ServiceUnavailable (ascii "Redis error: " ++ text)), world)
          else
            (some (.err .ServiceUnavailable (ascii "Unexpected Redis response type")), world)

/-- `RedisCache::SendCommandExpectOk`. -/
def sendCommandExpectOk (args : List Bytes) (world : World) : Result Unit × World :=
  match setup.sendAll (Resp.buildRespCommand args) world with
  | (false, world) => (.err .ServiceUnavailable (ascii "Redis write failed"), world)
  | (true, world) =>
      match setup.readLine world with
      | (none, world) => (.err .ServiceUnavailable (ascii "Redis read failed"), world)
      | (some [], world) => (.err .ServiceUnavailable (ascii "Redis empty response"), world)
      | (some (type :: text), world) =>
          if type = 43 ∨ type = 58 ∨ type = 36 then (.ok (), world)
          else if type = 45 then
            (.err .ServiceUnavailable (ascii "Redis error: " ++ text), world)
          else (.err .ServiceUnavailable (ascii "Unexpected Redis response type"), world)

/-! ## Connecting -/

/-- A command of `RedisCache::Connect` that is sent under a condition, and whose failure closes
the socket. -/
def handshake (wanted : Bool) (args : List Bytes) (world : World) : Result Unit × World :=
  if wanted then
    match setup.sendCommandExpectOk args world with
    | (.error status, world) => (.error status, world.close)
    | (.ok (), world) => (.ok (), world)
  else (.ok (), world)

/-- `RedisCache::Connect`.  The failure of `PING` leaves the socket open. -/
def connect (world : World) : Result Unit × World :=
  match setup.attempt world.close with
  | (false, world) => (.err .InternalError (ascii "Failed to create Redis socket"), world)
  | (true, world) =>
      let world := { world with connected := true, lost := false, received := [], unread := [] }
      match setup.attempt world with
      | (false, world) => (.err .InvalidArgument (ascii "Invalid Redis host"), world.close)
      | (true, world) =>
          match setup.attempt world with
          | (false, world) =>
              (.err .ServiceUnavailable (ascii "Failed to connect Redis"), world.close)
          | (true, world) =>
              match setup.handshake (!setup.config.password.isEmpty)
                [ascii "AUTH", setup.config.password] world with
              | (.error status, world) => (.error status, world)
              | (.ok (), world) =>
                  match setup.handshake (0 < setup.config.db)
                    [ascii "SELECT", Bytes.ofInt setup.config.db] world with
                  | (.error status, world) => (.error status, world)
                  | (.ok (), world) => setup.sendCommandExpectOk [ascii "PING"] world

/-- `RedisCache::EnsureConnected`. -/
def ensureConnected (world : World) : Result Unit × World :=
  if world.connected then (.ok (), world) else setup.connect world

/-! ## The calls of the cache -/

/-- `RedisCache::Init`. -/
def init (world : World) : Result Unit × World :=
  if setup.config.enabled then setup.connect world else (.ok (), world)

/-- `RedisCache::Get`; `none` when an exception leaves it. -/
def get (key : Bytes) (world : World) : Option (Result (Option Bytes)) × World :=
  if setup.config.enabled then
    match setup.ensureConnected world with
    | (.error status, world) => (some (.error status), world)
    | (.ok (), world) =>
        match setup.sendCommandGetBulk [ascii "GET", key] world with
        | (some (.error status), world) => (some (.error status), world.close)
        | (result, world) => (result, world)
  else (some (.ok none), world)

/-- The body of the calls that expect a status. -/
def update (args : List Bytes) (world : World) : Result Unit × World :=
  if setup.config.enabled then
    match setup.ensureConnected world with
    | (.error status, world) => (.error status, world)
    | (.ok (), world) =>
        match setup.sendCommandExpectOk args world with
        | (.error status, world) => (.error status, world.close)
        | (.ok (), world) => (.ok (), world)
  else (.ok (), world)

/-- `RedisCache::SetEx`. -/
def setEx (key : Bytes) (ttlSeconds : Int) (value : Bytes) (world : World) :
    Result Unit × World :=
  setup.update [ascii "SET", key, value, ascii "EX", Bytes.ofInt ttlSeconds] world

/-- `RedisCache::Del`. -/
def del (key : Bytes) (world : World) : Result Unit × World :=
  setup.update [ascii "DEL", key] world

end Setup

end MiniS3.RedisCache
