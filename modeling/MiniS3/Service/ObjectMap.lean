import MiniS3.Lib.Refinement
import MiniS3.Service.Effects
import MiniS3.Storage.Slices

/-!
# What the object service is for

`ObjectService` splits an object into a row of the database and a blob that objects with the same
content share.  To its callers it is a map: a content and a content type under a bucket and a key.
This file has the calls of the service with their answers, the map, and what it means that the
tables and the files hold a map.

The service tells keys apart by the index of `objects`, and contents by their digests, and it reads
a key and a content type up to its first NUL.  So it is a map only for keys that the index tells
apart, for contents that have different digests, and for keys and content types without a NUL.
-/

namespace MiniS3.ObjectService

open Lib Db Service

/-! ## Calls and answers -/

/-- The calls of `ObjectService`, but `ListObjects`. -/
inductive ObjectCall
  | putObject (bucketId : Int) (key content contentType : Bytes)
  | deleteObject (bucketId : Int) (key : Bytes)
  | copyObject (srcBucketId : Int) (srcKey : Bytes) (dstBucketId : Int) (dstKey : Bytes)
  | headObject (bucketId : Int) (key : Bytes)
  | objectExists (bucketId : Int) (key : Bytes)
  | getObject (bucketId : Int) (key : Bytes)
  | getObjectRange (bucketId : Int) (key : Bytes) (start end_ : Int)

/-- The answer to each call. -/
@[reducible]
def ObjectCall.Ans : ObjectCall → Type
  | .putObject .. | .copyObject .. => Result Bytes
  | .deleteObject .. => Result Unit
  | .headObject .. => Result ObjectInfo
  | .objectExists .. => Result Bool
  | .getObject .. | .getObjectRange .. => Result (Bytes × ObjectInfo)

/-- A call and its answer. -/
structure Exchange where
  call : ObjectCall
  answer : call.Ans

section

variable (setup : Setup) (process : Nat)

/-- A function of the service returns an answer.  No statement fails; calls on files may. -/
def Serving {α : Type} (program : ServiceM α) (world : World) (answer : α) (after : World) : Prop :=
  ∃ shownId choices, Program.execute (serviceAnswer setup process shownId) program choices world =
    some (answer, after)

/-- A function that reads returns an answer.  It is given enough calls of `read` for every file,
and none of them fails, but signals may interrupt some. -/
def Reading {α : Type} (program : Nat → ReadM (Option α)) (world : World) (answer : α)
    (after : World) : Prop :=
  ∃ calls signals choices reader,
    (∀ path content, world.files.lookup path = some content →
      signals + content.length < calls) ∧
    (∀ choice ∈ choices, ReadChoice.Untroubled choice) ∧
    Program.execute (Reader.answer setup) (program calls) choices ⟨world, [], 0, signals⟩ =
      some (some answer, reader) ∧
    after = reader.world

/-- One call of the service, from beginning to end. -/
def Performs (world : World) : Exchange → World → Prop
  | ⟨.putObject bucketId key content contentType, answer⟩, after =>
      Serving setup process (putObject setup bucketId key content contentType) world answer after
  | ⟨.deleteObject bucketId key, answer⟩, after =>
      Serving setup process (deleteObject bucketId key) world answer after
  | ⟨.copyObject srcBucketId srcKey dstBucketId dstKey, answer⟩, after =>
      Serving setup process (copyObject srcBucketId srcKey dstBucketId dstKey) world answer after
  | ⟨.headObject bucketId key, answer⟩, after =>
      Serving setup process (headObject bucketId key) world answer after
  | ⟨.objectExists bucketId key, answer⟩, after =>
      Serving setup process (objectExists bucketId key) world answer after
  | ⟨.getObject bucketId key, answer⟩, after =>
      Reading setup (fun calls => getObject setup calls bucketId key) world answer after
  | ⟨.getObjectRange bucketId key start end_, answer⟩, after =>
      Reading setup (fun calls => getObjectRange setup calls bucketId key start end_) world answer
        after

end

/-! ## The map -/

/-- What is stored under a key. -/
structure StoredObject where
  content : Bytes
  contentType : Bytes

/-- The objects of all buckets. -/
abbrev ObjectMap :=
  Int × Bytes → Option StoredObject

section

variable (setup : Setup)

/-- What the service tells about an object. -/
def StoredObject.info (bucketId : Int) (key : Bytes) (stored : StoredObject) : ObjectInfo :=
  ⟨bucketId, key, setup.sha256Hex stored.content, stored.content.length,
    wholeEtag (setup.sha256Hex stored.content), stored.contentType⟩

/-- The answer about an object that is not there. -/
def NotThere {α : Type} (answer : Result α) : Prop :=
  ∃ status, answer = .error status ∧ status.isNotFound = true

/-- How a map answers a call, and what it is afterwards. -/
inductive Answers (map : ObjectMap) : Exchange → ObjectMap → Prop
  | put (bucketId : Int) (key content contentType : Bytes) :
      Answers map
        ⟨.putObject bucketId key content contentType, .ok (setup.sha256Hex content)⟩
        (Function.update map (bucketId, key) (some ⟨content, contentType⟩))
  /-- The content could not be stored. -/
  | putFails (bucketId : Int) (key content contentType message : Bytes) :
      Answers map
        ⟨.putObject bucketId key content contentType, .err .StorageError message⟩ map
  | delete (bucketId : Int) (key : Bytes) : map (bucketId, key) ≠ none →
      Answers map ⟨.deleteObject bucketId key, .ok ()⟩
        (Function.update map (bucketId, key) none)
  | deleteAbsent (bucketId : Int) (key : Bytes) {answer : Result Unit} :
      map (bucketId, key) = none → NotThere answer →
      Answers map ⟨.deleteObject bucketId key, answer⟩ map
  | copy (srcBucketId : Int) (srcKey : Bytes) (dstBucketId : Int) (dstKey : Bytes)
      {stored : StoredObject} : map (srcBucketId, srcKey) = some stored →
      Answers map
        ⟨.copyObject srcBucketId srcKey dstBucketId dstKey, .ok (setup.sha256Hex stored.content)⟩
        (Function.update map (dstBucketId, dstKey) (some stored))
  | copyAbsent (srcBucketId : Int) (srcKey : Bytes) (dstBucketId : Int) (dstKey : Bytes)
      {answer : Result Bytes} : map (srcBucketId, srcKey) = none → NotThere answer →
      Answers map ⟨.copyObject srcBucketId srcKey dstBucketId dstKey, answer⟩ map
  | head (bucketId : Int) (key : Bytes) {stored : StoredObject} :
      map (bucketId, key) = some stored →
      Answers map ⟨.headObject bucketId key, .ok (stored.info setup bucketId key)⟩ map
  | headAbsent (bucketId : Int) (key : Bytes) {answer : Result ObjectInfo} :
      map (bucketId, key) = none → NotThere answer →
      Answers map ⟨.headObject bucketId key, answer⟩ map
  | tellsExistence (bucketId : Int) (key : Bytes) :
      Answers map ⟨.objectExists bucketId key, .ok (map (bucketId, key)).isSome⟩ map
  | get (bucketId : Int) (key : Bytes) {stored : StoredObject} :
      map (bucketId, key) = some stored →
      Answers map
        ⟨.getObject bucketId key, .ok (stored.content, stored.info setup bucketId key)⟩ map
  | getAbsent (bucketId : Int) (key : Bytes) {answer : Result (Bytes × ObjectInfo)} :
      map (bucketId, key) = none → NotThere answer →
      Answers map ⟨.getObject bucketId key, answer⟩ map
  | getRange (bucketId : Int) (key : Bytes) (start end_ : Int) {stored : StoredObject}
      {answer : Result (Bytes × ObjectInfo)} : map (bucketId, key) = some stored →
      DataStore.RangeOf stored.content (stored.info setup bucketId key) start end_ answer →
      Answers map ⟨.getObjectRange bucketId key start end_, answer⟩ map
  | getRangeAbsent (bucketId : Int) (key : Bytes) (start end_ : Int)
      {answer : Result (Bytes × ObjectInfo)} : map (bucketId, key) = none → NotThere answer →
      Answers map ⟨.getObjectRange bucketId key start end_, answer⟩ map

/-! ## Tables and files that hold a map -/

/-- The keys, the contents and the content types of a run: the index tells the keys apart, no two
contents have one digest, the length of a content is an `int64_t`, and no key and no content type
has a NUL. -/
structure Vocabulary where
  keys : Set Bytes
  contents : Set Bytes
  contentTypes : Set Bytes
  apart : Set.InjOn setup.indexed keys
  unlike : Set.InjOn setup.sha256Hex contents
  wholeKeys : ∀ key ∈ keys, 0 ∉ key
  wholeTypes : ∀ contentType ∈ contentTypes, 0 ∉ contentType
  short : ∀ content ∈ contents, content.length < 2 ^ 63

variable {setup}

/-- The keys, the content and the content type of a call are among these. -/
def ObjectCall.Within (vocabulary : Vocabulary setup) : ObjectCall → Prop
  | .putObject _ key content contentType =>
      key ∈ vocabulary.keys ∧ content ∈ vocabulary.contents ∧
        contentType ∈ vocabulary.contentTypes
  | .copyObject _ srcKey _ dstKey => srcKey ∈ vocabulary.keys ∧ dstKey ∈ vocabulary.keys
  | .deleteObject _ key | .headObject _ key | .objectExists _ key | .getObject _ key
  | .getObjectRange _ key _ _ => key ∈ vocabulary.keys

/-- The row of a stored object. -/
def StoredObject.row (setup : Setup) (key : Bytes) (stored : StoredObject) : ObjectRow :=
  ⟨key, setup.sha256Hex stored.content, stored.content.length, stored.contentType,
    wholeEtag (setup.sha256Hex stored.content)⟩

/-- The rows of `objects` are those of the map, with content types of the run, and each blob in it
has a row. -/
structure Listed (vocabulary : Vocabulary setup) (tables : Tables) (map : ObjectMap) : Prop where
  rows : ∀ bucketId key, key ∈ vocabulary.keys →
    tables.objects.lookup (bucketId, setup.indexed key) =
      (map (bucketId, key)).map (StoredObject.row setup key)
  typed : ∀ entry stored, map entry = some stored → stored.contentType ∈ vocabulary.contentTypes
  registered : ∀ entry stored, map entry = some stored →
    (tables.casBlobs.lookup (setup.sha256Hex stored.content)).isSome = true

/-- The blobs hold contents of the run under their digests, among them those of the map. -/
structure Filed (vocabulary : Vocabulary setup) (world : World) (map : ObjectMap) : Prop where
  named : ∀ casKey content, casKey.length = 64 →
    world.files.lookup (setup.getCasPath casKey) = some content →
    setup.sha256Hex content = casKey ∧ content ∈ vocabulary.contents
  stored : ∀ entry stored, map entry = some stored →
    world.files.lookup (setup.getCasPath (setup.sha256Hex stored.content)) = some stored.content

/-- The world holds the map.  There is no Redis cache: the functions that only the service calls
do not keep it up to date. -/
structure Holds (vocabulary : Vocabulary setup) (world : World) (map : ObjectMap) : Prop where
  listed : Listed vocabulary world.tables map
  filed : Filed vocabulary world map
  uncached : world.caches.redis = none

end

end MiniS3.ObjectService
