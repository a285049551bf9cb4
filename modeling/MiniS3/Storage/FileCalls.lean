import MiniS3.Storage.DataStore

/-!
# Calls on files

One rule for each call on a file that the blob store makes: what the program has to ensure after
the call, for each way the call can turn out, so that it ensures the same before.  A call can be
kept from turning out in some ways; `unlinkSucceeds` keeps `unlink` from failing.

A call that is interrupted is made again, and a short `write` or `read` is one of the counts that
the rules quantify over, so that what is proved with them holds for every schedule.
-/

namespace MiniS3

open Lib Db

/-- `unlink` succeeds, and every other call turns out as it likes. -/
def unlinkSucceeds : IoOp → Choice → Bool
  | .removeFile _, .failed _ => false
  | _, _ => true

/-- Nothing is kept from happening. -/
def anything : IoOp → Choice → Bool :=
  fun _ _ => true

theorem restrict_anything (setup : Setup) (process : Nat) :
    (answer setup process).restrict anything = answer setup process := by
  funext op choice world
  exact if_pos rfl

/-- Every execution of the program in which calls turn out only as allowed ends in `post`. -/
abbrev Leads (setup : Setup) (process : Nat) (allowed : IoOp → Choice → Bool) {α : Type}
    (post : α → World → Prop) (program : ServerM α) (world : World) : Prop :=
  Program.Ensures ((answer setup process).restrict allowed) (fun _ => True) post program world

/-- Two worlds have the same files, but for the file at some path. -/
def Elsewhere (path : Bytes) (before after : World) : Prop :=
  ∀ other, other ≠ path → after.files.lookup other = before.files.lookup other

theorem Elsewhere.refl (path : Bytes) (world : World) : Elsewhere path world world :=
  fun _ _ => rfl

theorem Elsewhere.trans {path : Bytes} {first second third : World}
    (one : Elsewhere path first second) (two : Elsewhere path second third) :
    Elsewhere path first third :=
  fun other different => (two other different).trans (one other different)

/-! ## What the calls do to the files -/

namespace World

/-- A server that has just been installed. -/
def empty : World where
  tables := Tables.empty
  caches := ⟨∅, none⟩
  files := ∅
  makers := ∅
  pendingDeletes := []
  uploads := ∅

theorem lookup_dropFile_self (path : Bytes) (world : World) :
    (world.dropFile path).files.lookup path = none :=
  Table.lookup_erase_self path world.files

theorem elsewhere_dropFile (path : Bytes) (world : World) :
    Elsewhere path world (world.dropFile path) :=
  fun _ different => Table.lookup_erase_ne world.files different

theorem elsewhere_appendFile (path data : Bytes) (world : World) :
    Elsewhere path world (world.appendFile path data) := by
  intro other different
  unfold appendFile
  cases world.files.lookup path with
  | none => rfl
  | some content => exact Table.lookup_set_ne _ _ different

theorem lookup_appendFile_self {path content : Bytes} {world : World}
    (present : world.files.lookup path = some content) (data : Bytes) :
    (world.appendFile path data).files.lookup path = some (content ++ data) := by
  simp [appendFile, present]

theorem lookup_moveFile {source target content : Bytes} {world : World}
    (present : world.files.lookup source = some content) (path : Bytes) :
    (world.moveFile source target).files.lookup path =
      if path = target then some content
      else if path = source then none else world.files.lookup path := by
  simp only [moveFile, present, Table.lookup_set]
  by_cases isTarget : path = target
  · rw [if_pos isTarget, if_pos isTarget]
  · rw [if_neg isTarget, if_neg isTarget]
    by_cases isSource : path = source
    · rw [isSource, if_pos rfl]
      exact Table.lookup_erase_self source world.files
    · rw [if_neg isSource]
      exact Table.lookup_erase_ne world.files isSource

end World

/-! ## The rules -/

section Rules

variable {setup : Setup} {process : Nat} {allowed : IoOp → Choice → Bool} {α : Type}
variable {post : α → World → Prop} {world : World}

/-- A call, for each way it is allowed to turn out. -/
theorem leads_call {op : IoOp} {next : op.Ans → ServerM α}
    (continues : ∀ choice answered after, allowed op choice = true →
      answer setup process op choice world = some (answered, after) →
      Leads setup process allowed post (next answered) after) :
    Leads setup process allowed post (.call op next) world := by
  intro choice answered after _ step
  unfold Program.Interface.restrict at step
  split at step
  · rename_i isAllowed
    exact continues choice answered after isAllowed step
  · contradiction

theorem leads_fileExists {path : Bytes} {next : Bool → ServerM α}
    (continues : Leads setup process allowed post (next (world.files.lookup path).isSome) world) :
    Leads setup process allowed post (.call (.fileExists path) next) world := by
  refine leads_call fun choice answered after _ step => ?_
  cases choice <;> simp only [answer, reduceCtorEq, Option.some.injEq, Prod.mk.injEq] at step
  obtain ⟨rfl, rfl⟩ := step
  exact continues

theorem leads_createDirectories {path : Bytes} {next : Except IoError Unit → ServerM α}
    (created : Leads setup process allowed post (next (.ok ())) world)
    (failed : ∀ text, Leads setup process allowed post (next (.error text)) world) :
    Leads setup process allowed post (.call (.createDirectories path) next) world := by
  refine leads_call fun choice answered after _ step => ?_
  cases choice <;> simp only [answer, reduceCtorEq, Option.some.injEq, Prod.mk.injEq] at step
  · obtain ⟨rfl, rfl⟩ := step
    exact created
  · obtain ⟨rfl, rfl⟩ := step
    exact failed _

theorem leads_atomicRename {source target : Bytes} {next : Except IoError Unit → ServerM α}
    (renamed : ∀ content, world.files.lookup source = some content →
      Leads setup process allowed post (next (.ok ())) (world.moveFile source target))
    (failed : ∀ text, allowed (.atomicRename source target) (.failed text) = true →
      Leads setup process allowed post (next (.error text)) world) :
    Leads setup process allowed post (.call (.atomicRename source target) next) world := by
  refine leads_call fun choice answered after isAllowed step => ?_
  cases choice <;> simp only [answer, reduceCtorEq, Option.ite_none_right_eq_some,
    Option.some.injEq, Prod.mk.injEq] at step
  · obtain ⟨present, rfl, rfl⟩ := step
    obtain ⟨content, isContent⟩ := Option.isSome_iff_exists.mp present
    exact renamed content isContent
  · obtain ⟨rfl, rfl⟩ := step
    exact failed _ isAllowed

theorem leads_removeFile {path : Bytes} {next : Except IoError Unit → ServerM α}
    (removed : Leads setup process allowed post (next (.ok ())) (world.dropFile path))
    (failed : ∀ text, allowed (.removeFile path) (.failed text) = true →
      Leads setup process allowed post (next (.error text)) world) :
    Leads setup process allowed post (.call (.removeFile path) next) world := by
  refine leads_call fun choice answered after isAllowed step => ?_
  cases choice <;> simp only [answer, reduceCtorEq, Option.some.injEq, Prod.mk.injEq] at step
  · obtain ⟨rfl, rfl⟩ := step
    exact removed
  · obtain ⟨rfl, rfl⟩ := step
    exact failed _ isAllowed

/-- Removing a file where `unlink` succeeds. -/
theorem leads_unlink {path : Bytes} {next : Except IoError Unit → ServerM α}
    (removed : Leads setup process unlinkSucceeds post (next (.ok ())) (world.dropFile path)) :
    Leads setup process unlinkSucceeds post (.call (.removeFile path) next) world :=
  leads_removeFile removed fun _ impossible => by simp [unlinkSucceeds] at impossible

theorem leads_openNew {path : Bytes} {next : Except IoError Unit → ServerM α}
    (opened : world.files.lookup path = none → ∀ makers,
      Leads setup process allowed post (next (.ok ()))
        { world with files := world.files.set path [], makers })
    (failed : ∀ text, Leads setup process allowed post (next (.error text)) world) :
    Leads setup process allowed post (.call (.openNew path) next) world := by
  refine leads_call fun choice answered after _ step => ?_
  cases choice <;> simp only [answer, reduceCtorEq, Option.ite_none_left_eq_some,
    Option.some.injEq, Prod.mk.injEq] at step
  · obtain ⟨absent, rfl, rfl⟩ := step
    exact opened (by simpa using absent) _
  · obtain ⟨rfl, rfl⟩ := step
    exact failed _

theorem leads_write {path data : Bytes} {next : Except IoError Nat → ServerM α}
    (wrote : ∀ length, 0 < length → length ≤ data.length →
      Leads setup process allowed post (next (.ok length))
        (world.appendFile path (data.take length)))
    (failed : ∀ text, Leads setup process allowed post (next (.error text)) world) :
    Leads setup process allowed post (.call (.write path data) next) world := by
  refine leads_call fun choice answered after _ step => ?_
  cases choice <;> simp only [answer, reduceCtorEq, Option.ite_none_right_eq_some,
    Option.some.injEq, Prod.mk.injEq] at step
  · obtain ⟨rfl, rfl⟩ := step
    exact failed _
  · obtain ⟨⟨some, within⟩, rfl, rfl⟩ := step
    exact wrote _ some within

theorem leads_openRead {path : Bytes} {next : Option Bytes → ServerM α}
    (opened : ∀ content, world.files.lookup path = some content →
      Leads setup process allowed post (next (some content)) world)
    (failed : Leads setup process allowed post (next none) world) :
    Leads setup process allowed post (.call (.openRead path) next) world := by
  refine leads_call fun choice answered after _ step => ?_
  cases choice <;> simp only [answer, reduceCtorEq, Option.map_eq_some_iff,
    Option.some.injEq, Prod.mk.injEq] at step
  · obtain ⟨content, present, rfl, rfl⟩ := step
    exact opened content present
  · obtain ⟨rfl, rfl⟩ := step
    exact failed

theorem leads_read {rest : Bytes} {next : Except IoError Nat → ServerM α}
    (read : ∀ length, readable rest length = true →
      Leads setup process allowed post (next (.ok length)) world)
    (failed : ∀ text, Leads setup process allowed post (next (.error text)) world) :
    Leads setup process allowed post (.call (.read rest) next) world := by
  refine leads_call fun choice answered after _ step => ?_
  cases choice <;> simp only [answer, reduceCtorEq, Option.ite_none_right_eq_some,
    Option.some.injEq, Prod.mk.injEq] at step
  · obtain ⟨rfl, rfl⟩ := step
    exact failed _
  · obtain ⟨isReadable, rfl, rfl⟩ := step
    exact read _ isReadable

theorem leads_generateUuid {next : Bytes → ServerM α}
    (generated : ∀ uuid, isUuid uuid = true →
      Leads setup process allowed post (next uuid) world) :
    Leads setup process allowed post (.call .generateUuid next) world := by
  refine leads_call fun choice answered after _ step => ?_
  cases choice <;> simp only [answer, reduceCtorEq, Option.ite_none_right_eq_some,
    Option.some.injEq, Prod.mk.injEq] at step
  obtain ⟨valid, rfl, rfl⟩ := step
  exact generated _ valid

end Rules

end MiniS3
