import MiniS3.Util.Bytes

/-!
# Status values

Error codes and the results of fallible calls.  A `Result` of the source holds a
value or a failed status; the code of a success is `OK` and carries no message.
-/

namespace MiniS3

/-- The error codes that the modelled calls return. -/
inductive ErrorCode
  | InvalidArgument
  | ChecksumMismatch
  | NoSuchBucket
  | NoSuchKey
  | NoSuchUpload
  | BucketAlreadyExists
  | InternalError
  | DatabaseError
  | StorageError
  | ServiceUnavailable
  deriving DecidableEq

/-- A failed status: its code and its message. -/
structure Status where
  code : ErrorCode
  message : Bytes
  deriving DecidableEq

/-- A value, or the status of the failure. -/
abbrev Result (α : Type) :=
  Except Status α

namespace Result

/-- `Result<T>::Err(code, message)`. -/
def err {α : Type} (code : ErrorCode) (message : Bytes) : Result α :=
  .error ⟨code, message⟩

/-- `result.ok()`. -/
def isOk {α : Type} : Result α → Bool
  | .ok _ => true
  | .error _ => false

theorem exists_of_isOk {α σ : Type} {done : Result α × σ} (succeeded : isOk done.1 = true) :
    ∃ value after, done = (.ok value, after) := by
  rcases done with ⟨answer, after⟩
  cases answer with
  | error status => contradiction
  | ok value => exact ⟨value, after, rfl⟩

end Result

end MiniS3
