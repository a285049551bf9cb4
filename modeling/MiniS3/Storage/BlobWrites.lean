import MiniS3.Storage.DataStore

/-!
# What writing a blob ends in

`DataStore::Write` returns the digest of the data it was given, or the failure of a call on
a file.  Neither touches the metadata.  The statements of this file are about executions in
which some calls may fail: `calm` says that none does, and then there is a result.
-/

namespace MiniS3

open Lib Db

/-- No call on a file fails. -/
def Unfailing : Choice → Prop
  | .failed _ => False
  | _ => True

/-- Tables and caches are the same in two worlds. -/
def SameMetadata (before after : World) : Prop :=
  after.tables = before.tables ∧ after.caches = before.caches

theorem SameMetadata.refl (world : World) : SameMetadata world world :=
  ⟨rfl, rfl⟩

theorem SameMetadata.trans {first second third : World} (one : SameMetadata first second)
    (two : SameMetadata second third) : SameMetadata first third :=
  ⟨two.1.trans one.1, two.2.trans one.2⟩

section

variable {setup : Setup} {process : Nat}

/-- Only calls of the metadata store touch the metadata. -/
theorem sameMetadata_answer {op : IoOp} (other : ∀ call, op ≠ .metaStore call)
    {choice : Choice} {world after : World} {answered : op.Ans}
    (step : answer setup process op choice world = some (answered, after)) :
    SameMetadata world after := by
  refine ⟨tables_answer other step, ?_⟩
  cases op with
  | metaStore call => exact absurd rfl (other call)
  | _ =>
      cases choice <;> simp only [answer] at step <;>
        grind [Option.map_eq_some_iff, World.moveFile, World.appendFile, World.dropFile]

variable {permitted : Choice → Prop} {α : Type} {post : α → World → Prop}

/-- A call outside the metadata store: the program goes on in a world with the same
metadata. -/
theorem ensures_call {op : IoOp} (other : ∀ call, op ≠ .metaStore call) {world : World}
    {next : op.Ans → ServerM α}
    (continues : ∀ choice answered after, permitted choice → SameMetadata world after →
      answer setup process op choice world = some (answered, after) →
      Program.Ensures (answer setup process) permitted post (next answered) after) :
    Program.Ensures (answer setup process) permitted post (.call op next) world := by
  intro choice answered after choicePermitted step
  exact continues choice answered after choicePermitted (sameMetadata_answer other step) step

end

namespace DataStore

/-- What a call of the blob store ends in: the metadata are as they were, a value is one
that `done` admits, and a failure means that some call failed. -/
def Ends {α : Type} (calm : Prop) (done : α → Prop) (before : World) (result : Result α)
    (after : World) : Prop :=
  SameMetadata before after ∧
    match result with
    | .ok value => done value
    | .error _ => ¬calm

section

variable {setup : Setup} {process : Nat} {calm : Prop} {permitted : Choice → Prop}
variable (unfailing : ∀ choice, permitted choice → calm → Unfailing choice)
include unfailing

theorem ensures_writeAll {α : Type} {post : α → World → Prop} {path : Bytes}
    {next : Except IoError Unit → ServerM α} (calls : Nat) (data : Bytes) (world : World)
    (done : ∀ result after, SameMetadata world after → (∀ text, result = .error text → ¬calm) →
      Program.Ensures (answer setup process) permitted post (next result) after) :
    Program.Ensures (answer setup process) permitted post (writeAll path calls data >>= next)
      world := by
  induction calls generalizing data world with
  | zero =>
      cases data with
      | nil => exact done _ _ (.refl world) (by rintro text ⟨⟩)
      | cons byte data => exact done _ _ (.refl world) (by rintro text ⟨⟩)
  | succ calls inductionHypothesis =>
      cases data with
      | nil => exact done _ _ (.refl world) (by rintro text ⟨⟩)
      | cons byte data =>
          refine ensures_call (by simp) ?_
          intro choice answered after choicePermitted same step
          cases answered with
          | error text =>
              refine done _ _ same ?_
              rintro _ ⟨⟩ isCalm
              have quiet := unfailing choice choicePermitted isCalm
              cases choice with
              | failed text => exact quiet
              | _ => simp [answer] at step
          | ok length =>
              refine inductionHypothesis _ after ?_
              intro result last sameLast
              exact done result last (same.trans sameLast)

/-- `CommitWrite` and `Merge` end with the key they were given. -/
theorem ensures_place {tmpPath casKey : Bytes} (world : World) :
    Program.Ensures (answer setup process) permitted (Ends calm (· = casKey) world)
      (place setup tmpPath casKey) world := by
  refine ensures_call (by simp) ?_
  intro choice present afterTest _ sameTest _
  cases present with
  | true =>
      refine ensures_call (by simp) ?_
      intro choice removed after _ same _
      exact ⟨sameTest.trans same, rfl⟩
  | false =>
      refine ensures_call (by simp) ?_
      intro choice created afterCreate createPermitted sameCreate createStep
      cases created with
      | error text =>
          refine ensures_call (by simp) ?_
          intro _ removed after _ same _
          refine ⟨(sameTest.trans sameCreate).trans same, fun isCalm => ?_⟩
          have quiet := unfailing choice createPermitted isCalm
          cases choice with
          | failed text => exact quiet
          | _ => simp [answer] at createStep
      | ok =>
          refine ensures_call (by simp) ?_
          intro choice renamed afterRename renamePermitted sameRename renameStep
          cases renamed with
          | error text =>
              refine ensures_call (by simp) ?_
              intro _ removed after _ same _
              refine ⟨((sameTest.trans sameCreate).trans sameRename).trans same,
                fun isCalm => ?_⟩
              have quiet := unfailing choice renamePermitted isCalm
              cases choice with
              | failed text => exact quiet
              | _ => simp [answer] at renameStep
          | ok => exact ⟨(sameTest.trans sameCreate).trans sameRename, rfl⟩

/-- `Write` returns the digest of its data. -/
theorem ensures_write {data : Bytes} (world : World) :
    Program.Ensures (answer setup process) permitted
      (Ends calm (· = setup.sha256Hex data) world) (write setup data) world := by
  refine ensures_call (by simp) ?_
  intro _ uuid afterUuid _ sameUuid _
  refine ensures_call (by simp) ?_
  intro choice opened afterOpen openPermitted sameOpen openStep
  have same := sameUuid.trans sameOpen
  cases opened with
  | error text =>
      refine ⟨same, fun isCalm => ?_⟩
      have quiet := unfailing choice openPermitted isCalm
      cases choice with
      | failed text => exact quiet
      | _ => simp [answer] at openStep
  | ok =>
      change Program.Ensures _ _ _ (WriteSession.write data _ >>= _) afterOpen
      unfold WriteSession.write
      rw [Program.bind_assoc]
      refine ensures_writeAll unfailing _ data afterOpen ?_
      intro written afterWrite sameWrite failure
      have same := same.trans sameWrite
      cases written with
      | error text =>
          refine ensures_call (by simp) ?_
          intro _ removed after _ sameRemove _
          exact ⟨same.trans sameRemove, failure text rfl⟩
      | ok =>
          refine (ensures_place unfailing afterWrite).mono ?_
          intro result after ended
          exact ⟨same.trans ended.1, ended.2⟩

end

end DataStore

end MiniS3
