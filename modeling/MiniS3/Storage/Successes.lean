import MiniS3.Storage.Merging

/-!
# Where every call succeeds

A call of the metadata store or on a file that reports no error.  Where every call is such a call,
a program ends as it does when calls may fail, and what it would do after a failure does not
happen: data is written whole, blobs are merged, and a file gets its name.
-/

namespace MiniS3

open Lib Db

/-- A function of the metadata store that reports no error. -/
def Db.MetaCall.succeeded : (call : MetaCall) → call.Ans → Bool
  | .createBucket .., .error _ | .getBucket .., .error _ | .getBucketById .., .error _
  | .listBuckets, .error _ | .deleteBucket .., .error _ | .isBucketEmpty .., .error _
  | .putObjectWithRefCount .., .error _ | .getObject .., .error _ | .listObjects .., .error _
  | .deleteObjectWithRefCount .., .error _ | .getCasBlob .., .error _
  | .decrementRefCountAndCheckZero .., .error _ | .deleteCasBlob .., .error _
  | .canDeleteCasBlob .., .error _ | .createMultipartUpload .., .error _
  | .getMultipartUpload .., .error _ | .deleteMultipartUpload .., .error _
  | .putPartWithRefCount .., .error _ | .listParts .., .error _ | .checkIdempotency .., .error _
  | .recordIdempotency .., .error _ => false
  | _, _ => true

/-- A call that reports no error. -/
def IoOp.succeeded : (op : IoOp) → op.Ans → Bool
  | .metaStore call, answered => call.succeeded answered
  | .createDirectories _, .error _ | .atomicRename .., .error _ | .removeFile _, .error _
  | .openNew _, .error _ | .write .., .error _ | .read _, .error _ => false
  | .openRead _, none => false
  | _, _ => true

/-- Every execution of the program in which every call succeeds ends in `post`. -/
abbrev Succeeds (setup : Setup) (process : Nat) {α : Type} (post : α → World → Prop)
    (program : ServerM α) (world : World) : Prop :=
  Program.Ensures ((answer setup process).accept IoOp.succeeded) (fun _ => True) post program world

section Rules

variable {setup : Setup} {process : Nat} {α : Type} {post : α → World → Prop} {world : World}

/-- A call, for each way in which it can succeed. -/
theorem succeeds_call {op : IoOp} {next : op.Ans → ServerM α}
    (continues : ∀ choice answered after, op.succeeded answered = true →
      answer setup process op choice world = some (answered, after) →
      Succeeds setup process post (next answered) after) :
    Succeeds setup process post (.call op next) world := by
  intro choice answered after _ step
  obtain ⟨given, succeeded⟩ := Option.filter_eq_some_iff.mp step
  exact continues choice answered after succeeded given

/-- What happens whatever fails but `unlink` happens where nothing fails. -/
theorem succeeds_of_leads {program : ServerM α}
    (leads : Leads setup process unlinkSucceeds post program world) :
    Succeeds setup process post program world := by
  refine Program.Ensures.narrow leads fun op choice before answered after step => ?_
  obtain ⟨given, succeeded⟩ := Option.filter_eq_some_iff.mp step
  unfold Program.Interface.restrict
  split
  · exact given
  · rename_i refused
    unfold unlinkSucceeds at refused
    split at refused
    · simp only [answer, Option.some.injEq, Prod.mk.injEq] at given
      obtain ⟨rfl, rfl⟩ := given
      cases succeeded
    · exact absurd rfl refused

/-- A call of the metadata store, by its effect. -/
theorem succeeds_metaStore {call : MetaCall} {next : call.Ans → ServerM α}
    (continues : ∀ answered tables caches, call.succeeded answered = true →
      call.Effect setup.indexed True world.tables world.caches answered tables caches →
      Succeeds setup process post (next answered) { world with tables, caches }) :
    Succeeds setup process post (.call (.metaStore call) next) world := by
  refine succeeds_call fun choice answered after succeeded step => ?_
  obtain ⟨faults, clock, -, same, effect⟩ := answer_metaStore step
  rw [same]
  exact continues answered _ _ succeeded (effect True (.inl trivial))

end Rules

namespace DataStore

variable {setup : Setup} {process : Nat} {world : World}

theorem succeeds_writeAll {path : Bytes} (calls : Nat) (data : Bytes) :
    Succeeds setup process (fun result _ => result = .ok ()) (writeAll path calls data) world := by
  induction calls generalizing data world with
  | zero => cases data <;> exact rfl
  | succ calls inductionHypothesis =>
      cases data with
      | nil => exact rfl
      | cons byte data =>
          refine succeeds_call fun choice answered after succeeded _ => ?_
          cases answered with
          | error text => cases succeeded
          | ok length => exact inductionHypothesis _

theorem succeeds_copyRest {tmpPath : Bytes} (calls : Nat) (rest hashed : Bytes) :
    Succeeds setup process (fun result _ => result.isOk = true) (copyRest tmpPath calls rest hashed)
      world := by
  induction calls generalizing rest hashed world with
  | zero => exact rfl
  | succ calls inductionHypothesis =>
      refine succeeds_call fun choice answered after succeeded _ => ?_
      match answered with
      | .error text => cases succeeded
      | .ok 0 => exact rfl
      | .ok (length + 1) =>
          change Succeeds _ _ _ (writeAll _ _ _ >>= _) after
          apply Program.ensures_bind.mpr
          refine (succeeds_writeAll _ _).mono ?_
          rintro written after rfl
          exact inductionHypothesis _ _

theorem succeeds_copyAll {tmpPath : Bytes} (casKeys : List Bytes) (hashed : Bytes) :
    Succeeds setup process (fun result _ => result.isOk = true)
      (copyAll setup tmpPath casKeys hashed) world := by
  induction casKeys generalizing hashed world with
  | nil => exact rfl
  | cons casKey casKeys inductionHypothesis =>
      refine succeeds_call fun choice answered after succeeded _ => ?_
      cases answered with
      | none => cases succeeded
      | some content =>
          change Succeeds _ _ _ (copyRest _ _ _ _ >>= _) after
          apply Program.ensures_bind.mpr
          refine (succeeds_copyRest _ _ _).mono ?_
          intro copied after isOk
          cases copied with
          | error status => cases isOk
          | ok hashed => exact inductionHypothesis hashed

theorem succeeds_place {tmpPath casKey : Bytes} :
    Succeeds setup process (fun result _ => result.isOk = true) (place setup tmpPath casKey)
      world := by
  refine succeeds_call fun choice present after _ _ => ?_
  cases present with
  | true => exact succeeds_call fun _ _ _ _ _ => rfl
  | false =>
      refine succeeds_call fun choice created after succeeded _ => ?_
      cases created with
      | error text => cases succeeded
      | ok =>
          refine succeeds_call fun choice renamed after succeeded _ => ?_
          cases renamed with
          | error text => cases succeeded
          | ok => exact rfl

/-- `Merge` fails only on an empty list, when no call does. -/
theorem succeeds_merge {casKeys : List Bytes} (some : casKeys ≠ []) :
    Succeeds setup process (fun result _ => result.isOk = true) (merge setup casKeys) world := by
  unfold merge
  rw [if_neg (by simpa using some)]
  refine succeeds_call fun choice uuid after _ _ => ?_
  refine succeeds_call fun choice opened after succeeded _ => ?_
  cases opened with
  | error text => cases succeeded
  | ok =>
      change Succeeds _ _ _ (copyAll _ _ casKeys [] >>= _) after
      apply Program.ensures_bind.mpr
      refine (succeeds_copyAll casKeys []).mono ?_
      intro copied after isOk
      cases copied with
      | error status => cases isOk
      | ok hashed => exact succeeds_place

end DataStore

end MiniS3
