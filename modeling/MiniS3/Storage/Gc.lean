import MiniS3.Storage.World

/-!
# The garbage collector

A batch of blobs that were reported as free.  Each is checked, set aside under a
quarantine name, checked again, and then restored or removed.  The delete callback
is the one the server installs, which checks a third time before it deletes the row
of the blob.
-/

namespace MiniS3.GarbageCollector

open Lib Db

variable (setup : Setup)

/-- The server's delete callback. -/
def deleteCallback (casKey : Bytes) (success : Bool) (rest : ServerM Unit) : ServerM Unit := do
  if success then
    match ← perform (.metaStore (.canDeleteCasBlob casKey)) with
    | .ok true =>
        let _ ← perform (.metaStore (.deleteCasBlob casKey))
        rest
    | _ => rest
  else rest

/-- The file is set aside, or was not there: check again, and restore or remove it. -/
def recheck (casKey uuid : Bytes) (renamed : Bool) (rest : ServerM Unit) : ServerM Unit := do
  let filePath := setup.getCasPath casKey
  let quarantinePath := setup.quarantinePath casKey uuid
  match ← perform (.metaStore (.canDeleteCasBlob casKey)) with
  | .ok true =>
      if renamed then
        let status ← perform (.removeFile quarantinePath)
        deleteCallback casKey status.toBool rest
      else deleteCallback casKey true rest
  | _ =>
      if renamed then
        let _ ← perform (.atomicRename quarantinePath filePath)
        rest
      else rest

/-- Set the file of a blob aside. -/
def quarantine (casKey : Bytes) (rest : ServerM Unit) : ServerM Unit := do
  let uuid ← perform .generateUuid
  let filePath := setup.getCasPath casKey
  if ← perform (.fileExists filePath) then
    match ← perform (.atomicRename filePath (setup.quarantinePath casKey uuid)) with
    | .error _ => rest
    | .ok () => recheck setup casKey uuid true rest
  else recheck setup casKey uuid false rest

/-- The loop of `ProcessBatch`. -/
def processKeys : List Bytes → ServerM Unit
  | [] => pure ()
  | casKey :: casKeys => do
      match ← perform (.metaStore (.canDeleteCasBlob casKey)) with
      | .ok true => quarantine setup casKey (processKeys casKeys)
      | _ => processKeys casKeys

/-- `GarbageCollector::ProcessBatch`. -/
def processBatch : ServerM Unit := do
  let batch ← perform (.takePendingDeletes setup.gcBatchSize)
  processKeys setup batch

end MiniS3.GarbageCollector
