import MiniS3.Lib.Interleaving

/-!
# Transactions under row locks

An engine keeps rows; a statement, evaluated on the data a session sees, gives an
answer and the row images it writes.  Sessions run under *read committed*: a
session sees the committed data with its own uncommitted images over it.  A
statement waits for the rows it needs while another session holds them, and a
row lock is held until the transaction ends.  At any statement the engine may
report an error: the statement alone is undone, or, as for a deadlock, the whole
transaction.

`Safe` describes a session program from where it stands: whatever committed data
agree with what the session saw on the rows it holds, every commit it can reach
keeps the invariant.  Other sessions cannot change those rows, so `Safe` is
never disturbed, and the committed data keep the invariant in every interleaving.
-/

namespace MiniS3.Lib.RowLocks

open Interleaving Transition

/-- A store of rows with its statements. -/
structure Engine where
  Data : Type
  Row : Type
  Write : Type
  Stmt : Type
  Ans : Stmt → Type
  Error : Type
  /-- Calls of the sessions that do not concern the store. -/
  Aux : Type
  AuxAns : Aux → Type
  rowEq : DecidableEq Row
  target : Write → Row
  apply : Data → Write → Data
  /-- The answer and the row images of a statement on the data it sees. -/
  eval : (stmt : Stmt) → Data → Except Error (Ans stmt × List Write)
  /-- Rows a statement waits for. -/
  waits : Stmt → Data → List Row
  /-- Rows a successful statement holds until its transaction ends. -/
  locks : Stmt → Data → List Row
  /-- Two data have the same content in a row. -/
  Same : Row → Data → Data → Prop
  same_refl : ∀ row data, Same row data data
  same_trans : ∀ {row first second third}, Same row first second → Same row second third →
    Same row first third
  same_apply : ∀ {row} data {write}, row ≠ target write → Same row data (apply data write)
  target_mem_locks : ∀ {stmt data answer writes}, eval stmt data = .ok (answer, writes) →
    ∀ write ∈ writes, target write ∈ locks stmt data
  locks_subset_waits : ∀ stmt data, locks stmt data ⊆ waits stmt data

namespace Engine

variable (E : Engine)

instance : DecidableEq E.Row :=
  E.rowEq

/-- Write a list of row images in order. -/
def applyAll (data : E.Data) (writes : List E.Write) : E.Data :=
  writes.foldl E.apply data

/-- Two data have the same content in all rows of a set. -/
def AgreeOn (rows : E.Row → Prop) (first second : E.Data) : Prop :=
  ∀ row, rows row → E.Same row first second

/-- What a session asks of the engine. -/
inductive Op
  | begin
  | exec (stmt : E.Stmt)
  | commit
  | rollback
  | aux (op : E.Aux)

/-- The answer to each call of a session. -/
@[reducible]
def OpAns : E.Op → Type
  | .begin => Unit
  | .exec stmt => Except E.Error (E.Ans stmt)
  | .commit => Except E.Error Unit
  | .rollback => Unit
  | .aux op => E.AuxAns op

/-- The calls of a session program. -/
abbrev sig : Signature :=
  ⟨E.Op, E.OpAns⟩

variable {E}

theorem same_applyAll {row : E.Row} (data : E.Data) {writes : List E.Write}
    (apart : ∀ write ∈ writes, row ≠ E.target write) :
    E.Same row data (E.applyAll data writes) := by
  induction writes generalizing data with
  | nil => exact E.same_refl row data
  | cons write rest inductionHypothesis =>
      have first := E.same_apply data (apart write List.mem_cons_self)
      have second := inductionHypothesis (E.apply data write)
        fun other member => apart other (List.mem_cons_of_mem _ member)
      exact E.same_trans first second

theorem AgreeOn.refl (rows : E.Row → Prop) (data : E.Data) : E.AgreeOn rows data data :=
  fun row _ => E.same_refl row data

theorem AgreeOn.trans {rows : E.Row → Prop} {first second third : E.Data}
    (one : E.AgreeOn rows first second) (two : E.AgreeOn rows second third) :
    E.AgreeOn rows first third :=
  fun row member => E.same_trans (one row member) (two row member)

end Engine

variable {E : Engine} {α ι : Type}

/-! ## Sessions on a shared store -/

/-- The store the sessions share.  A session with `transaction` equal to `none` is
in autocommit mode; otherwise it has the images written since the start of its
transaction. -/
structure Store (E : Engine) where
  committed : E.Data
  owner : E.Row → Option Nat
  transaction : Nat → Option (List E.Write)

/-- What the engine does at a call: perform it, refuse the statement, refuse it
and roll the transaction back, or answer a call that is not its own. -/
inductive Choice (E : Engine)
  | proceed
  | refuse (error : E.Error)
  | abort (error : E.Error)
  | answer (answers : (op : E.Aux) → E.AuxAns op)

namespace Store

/-- The images a session has written in its open transaction. -/
def pending (store : Store E) (session : Nat) : List E.Write :=
  (store.transaction session).getD []

/-- The data a session sees. -/
def view (store : Store E) (session : Nat) : E.Data :=
  E.applyAll store.committed (store.pending session)

/-- A row is held by another session. -/
def heldByOther (store : Store E) (session : Nat) (row : E.Row) : Bool :=
  match store.owner row with
  | some owner => owner != session
  | none => false

/-- End the transaction of a session and release its rows. -/
def release (store : Store E) (session : Nat) : Store E where
  committed := store.committed
  owner := fun row => if store.owner row = some session then none else store.owner row
  transaction := fun other => if other = session then none else store.transaction other

/-- Make the images of a session's transaction the committed ones, and end it. -/
def commit (store : Store E) (session : Nat) : Store E :=
  { store with committed := store.view session }.release session

/-- Start a transaction; one that is open is committed first. -/
def begin (store : Store E) (session : Nat) : Store E :=
  let ended := store.commit session
  { ended with
    transaction := fun other => if other = session then some [] else ended.transaction other }

/-- Record the effect of a successful statement. -/
def record (store : Store E) (session : Nat) (rows : List E.Row) (writes : List E.Write) :
    Store E :=
  match store.transaction session with
  | none => { store with committed := E.applyAll store.committed writes }
  | some pending =>
      { store with
        owner := fun row => if row ∈ rows then some session else store.owner row
        transaction := fun other =>
          if other = session then some (pending ++ writes) else store.transaction other }

/-- The engine's answer to a call of a session. -/
def answer (session : Nat) : Program.Interface E.sig (Choice E) (Store E)
  | .begin, .proceed, store => some ((), store.begin session)
  | .exec stmt, .proceed, store =>
      if (E.waits stmt (store.view session)).any (store.heldByOther session) then none
      else match E.eval stmt (store.view session) with
        | .error error => some (.error error, store)
        | .ok (answered, writes) =>
            some (.ok answered,
              store.record session (E.locks stmt (store.view session)) writes)
  | .exec _, .refuse error, store => some (.error error, store)
  | .exec _, .abort error, store => some (.error error, store.release session)
  | .commit, .proceed, store => some (.ok (), store.commit session)
  | .commit, .refuse error, store => some (.error error, store.release session)
  | .rollback, .proceed, store => some ((), store.release session)
  | .aux op, .answer answers, store => some (answers op, store)
  | _, _, _ => none

end Store

/-! ## Safe session programs -/

section Safe

variable (good : E.Data → Prop) (permitted : E.Stmt → (E.Row → Prop) → E.Data → Prop)

/-- What is known where a program stands: the data the session last saw, the rows it
holds and the images of its open transaction. -/
abbrev Assertion (E : Engine) (α : Type) :=
  α → E.Data → (E.Row → Prop) → Option (List E.Write) → Prop

/-- A finished session has ended its transaction. -/
def Ended : Assertion E α :=
  fun _ _ held transaction => transaction = none ∧ ∀ row, ¬held row

/-- Every commit the program can reach keeps `good`, and it ends in `post`, given
that the committed data agree with `known` on the rows the session holds whenever
it makes a call, and that each statement is `permitted` on the data it sees. -/
def SafeThen (post : Assertion E α) :
    Program E.sig α → E.Data → (E.Row → Prop) → Option (List E.Write) → Prop
  | .ret value, known, held, transaction => post value known held transaction
  | .call .begin next, known, held, transaction =>
      ∀ data, good data → E.AgreeOn held known data →
        good (E.applyAll data (transaction.getD [])) ∧
        SafeThen post (next ()) (E.applyAll data (transaction.getD [])) (fun _ => False) (some [])
  | .call (.exec stmt) next, known, held, transaction =>
      ∀ data, good data → E.AgreeOn held known data →
        (∀ error, SafeThen post (next (.error error)) data held transaction ∧
          SafeThen post (next (.error error)) data (fun _ => False) none) ∧
        (permitted stmt held (E.applyAll data (transaction.getD [])) →
          ∀ answered writes,
            E.eval stmt (E.applyAll data (transaction.getD [])) = .ok (answered, writes) →
            match transaction with
            | none => good (E.applyAll data writes) ∧
                SafeThen post (next (.ok answered)) (E.applyAll data writes) held none
            | some pending =>
                SafeThen post (next (.ok answered)) data
                  (fun row => row ∈ E.locks stmt (E.applyAll data pending) ∨ held row)
                  (some (pending ++ writes)))
  | .call .commit next, known, held, transaction =>
      ∀ data, good data → E.AgreeOn held known data →
        good (E.applyAll data (transaction.getD [])) ∧
        SafeThen post (next (.ok ())) (E.applyAll data (transaction.getD [])) (fun _ => False) none ∧
        ∀ error, SafeThen post (next (.error error)) data (fun _ => False) none
  | .call .rollback next, known, held, _ =>
      ∀ data, good data → E.AgreeOn held known data →
        SafeThen post (next ()) data (fun _ => False) none
  | .call (.aux _) next, known, held, transaction =>
      ∀ data, good data → E.AgreeOn held known data →
        ∀ answered, SafeThen post (next answered) data held transaction

/-- A program all of whose commits keep `good` and that ends its transactions. -/
abbrev Safe : Program E.sig α → E.Data → (E.Row → Prop) → Option (List E.Write) → Prop :=
  SafeThen good permitted Ended

/-- `Safe` for a session that may have nothing left to run. -/
def SafeAt (known : E.Data) (held : E.Row → Prop) (transaction : Option (List E.Write)) :
    Option (Program E.sig α) → Prop
  | none => transaction = none ∧ ∀ row, ¬held row
  | some program => Safe good permitted program known held transaction

variable {good permitted}

/-- Other sessions cannot disturb a safe program. -/
theorem SafeAt.stable {point : Option (Program E.sig α)} {known data : E.Data}
    {held : E.Row → Prop} {transaction : Option (List E.Write)}
    (safe : SafeAt good permitted known held transaction point)
    (agree : E.AgreeOn held known data) :
    SafeAt good permitted data held transaction point := by
  cases point with
  | none => exact safe
  | some program =>
      cases program with
      | ret value => exact safe
      | call op next =>
          cases op <;>
            exact fun later goodLater agreeLater => safe later goodLater (agree.trans agreeLater)

/-- Sequencing: what the first part ends in is where the second part starts. -/
theorem safeThen_bind {β : Type} {post : Assertion E β} {program : Program E.sig α}
    {rest : α → Program E.sig β} {known : E.Data} {held : E.Row → Prop}
    {transaction : Option (List E.Write)} :
    SafeThen good permitted post (program >>= rest) known held transaction ↔
      SafeThen good permitted (fun value => SafeThen good permitted post (rest value)) program
        known held transaction := by
  induction program generalizing known held transaction with
  | ret value => rfl
  | call op next inductionHypothesis =>
      cases op <;> simp only [Program.call_bind, SafeThen, inductionHypothesis]

/-- A program stays safe when fewer statements are permitted and less is asked of its end. -/
theorem SafeThen.mono {stricter : E.Stmt → (E.Row → Prop) → E.Data → Prop}
    {strong weak : Assertion E α} {program : Program E.sig α} {known : E.Data}
    {held : E.Row → Prop} {transaction : Option (List E.Write)}
    (safe : SafeThen good permitted strong program known held transaction)
    (permits : ∀ stmt rows data, stricter stmt rows data → permitted stmt rows data)
    (implies : ∀ value data rows images, strong value data rows images →
      weak value data rows images) :
    SafeThen good stricter weak program known held transaction := by
  induction program generalizing known held transaction with
  | ret value => exact implies value known held transaction safe
  | call op next inductionHypothesis =>
      cases op with
      | begin =>
          intro data goodData agree
          have now := safe data goodData agree
          exact ⟨now.1, inductionHypothesis _ now.2⟩
      | exec stmt =>
          intro data goodData agree
          have now := safe data goodData agree
          constructor
          · intro error
            exact ⟨inductionHypothesis _ (now.1 error).1, inductionHypothesis _ (now.1 error).2⟩
          · intro permit answered writes evaluated
            have continues := now.2 (permits _ _ _ permit) answered writes evaluated
            cases transaction with
            | none => exact ⟨continues.1, inductionHypothesis _ continues.2⟩
            | some pending => exact inductionHypothesis _ continues
      | commit =>
          intro data goodData agree
          have now := safe data goodData agree
          exact ⟨now.1, inductionHypothesis _ now.2.1, fun error =>
            inductionHypothesis _ (now.2.2 error)⟩
      | rollback =>
          intro data goodData agree
          exact inductionHypothesis _ (safe data goodData agree)
      | aux op =>
          intro data goodData agree answered
          exact inductionHypothesis _ (safe data goodData agree answered)

/-- A session that holds no rows knows nothing of the data: it is safe from any data when it
is safe from good ones. -/
theorem safe_of_good {program : Program E.sig α}
    (safe : ∀ data, good data → Safe good permitted program data (fun _ => False) none)
    (known : E.Data) : Safe good permitted program known (fun _ => False) none := by
  cases program with
  | ret value => exact ⟨rfl, fun _ => not_false⟩
  | call op next =>
      cases op <;> exact fun data goodData _ => safe data goodData data goodData (.refl _ _)

/-- A program whose calls are carried out by safe programs is safe. -/
theorem safe_interpret {S : Signature} {allowed : S.Op → Prop} {result : α → Prop}
    {implementation : (op : S.Op) → Program E.sig (S.Ans op)} {program : Program S α}
    (only : Program.Only allowed result program)
    (safe : ∀ op, allowed op → ∀ data, good data →
      Safe good permitted (implementation op) data (fun _ => False) none) (known : E.Data) :
    Safe good permitted (program.interpret implementation) known (fun _ => False) none := by
  induction program generalizing known with
  | ret value => exact ⟨rfl, fun _ => not_false⟩
  | call op next inductionHypothesis =>
      apply safeThen_bind.mpr
      refine (safe_of_good (safe op only.1) known).mono (fun _ _ _ permit => permit) ?_
      rintro answer data rows images ⟨rfl, nothingHeld⟩
      have noRows : rows = fun _ => False := by
        funext row
        exact propext (iff_false_intro (nothingHeld row))
      subst noRows
      exact inductionHypothesis answer (only.2 answer) data

/-- Calls of a session that never opens a transaction and sends only some statements. -/
def Autocommit (statements : E.Stmt → Prop) : E.Op → Prop
  | .exec stmt => statements stmt
  | .aux _ => True
  | _ => False

/-- Statements that keep `good` by themselves, outside of any transaction. -/
theorem safe_of_autocommit {statements : E.Stmt → Prop} {result : α → Prop}
    {program : Program E.sig α} (only : Program.Only (Autocommit statements) result program)
    (keeps : ∀ stmt, statements stmt → ∀ rows data answered writes, good data →
      permitted stmt rows data → E.eval stmt data = .ok (answered, writes) →
      good (E.applyAll data writes)) (known : E.Data) :
    Safe good permitted program known (fun _ => False) none := by
  induction program generalizing known with
  | ret value => exact ⟨rfl, fun _ => not_false⟩
  | call op next inductionHypothesis =>
      cases op with
      | begin => exact only.1.elim
      | commit => exact only.1.elim
      | rollback => exact only.1.elim
      | aux op =>
          intro data goodData agree answered
          exact inductionHypothesis answered (only.2 answered) data
      | exec stmt =>
          intro data goodData agree
          constructor
          · intro error
            have failed := inductionHypothesis _ (only.2 (.error error)) data
            exact ⟨failed, failed⟩
          · intro permit answered writes evaluated
            exact ⟨keeps stmt only.1 _ data answered writes goodData permit evaluated,
              inductionHypothesis _ (only.2 (.ok answered)) _⟩

/-! ### More calls beside the store -/

/-- The same store, with further calls that do not concern it. -/
abbrev Engine.extend (E : Engine) (Aux : Type) (AuxAns : Aux → Type) : Engine :=
  { E with
    Aux := E.Aux ⊕ Aux
    AuxAns := Sum.elim E.AuxAns AuxAns }

/-- A session program, where more calls could be made. -/
def Engine.lift {Aux : Type} {AuxAns : Aux → Type} :
    Program E.sig α → Program (E.extend Aux AuxAns).sig α
  | .ret value => .ret value
  | .call .begin next => .call .begin fun answer => lift (next answer)
  | .call (.exec stmt) next => .call (.exec stmt) fun answer => lift (next answer)
  | .call .commit next => .call .commit fun answer => lift (next answer)
  | .call .rollback next => .call .rollback fun answer => lift (next answer)
  | .call (.aux op) next => .call (.aux (.inl op)) fun answer => lift (next answer)

theorem SafeThen.lift {Aux : Type} {AuxAns : Aux → Type} {post : Assertion E α}
    {program : Program E.sig α} {known : E.Data} {held : E.Row → Prop}
    {transaction : Option (List E.Write)}
    (safe : SafeThen good permitted post program known held transaction) :
    SafeThen (E := E.extend Aux AuxAns) good permitted post (Engine.lift program) known held
      transaction := by
  induction program generalizing known held transaction with
  | ret value => exact safe
  | call op next inductionHypothesis =>
      cases op with
      | begin =>
          intro data goodData agree
          have now := safe data goodData agree
          exact ⟨now.1, inductionHypothesis _ now.2⟩
      | exec stmt =>
          intro data goodData agree
          have now := safe data goodData agree
          constructor
          · intro error
            exact ⟨inductionHypothesis _ (now.1 error).1, inductionHypothesis _ (now.1 error).2⟩
          · intro permit answered writes evaluated
            have continues := now.2 permit answered writes evaluated
            cases transaction with
            | none => exact ⟨continues.1, inductionHypothesis _ continues.2⟩
            | some pending => exact inductionHypothesis _ continues
      | commit =>
          intro data goodData agree
          have now := safe data goodData agree
          exact ⟨now.1, inductionHypothesis _ now.2.1, fun error =>
            inductionHypothesis _ (now.2.2 error)⟩
      | rollback =>
          intro data goodData agree
          exact inductionHypothesis _ (safe data goodData agree)
      | aux op =>
          intro data goodData agree answered
          exact inductionHypothesis _ (safe data goodData agree answered)

theorem only_lift {Aux : Type} {AuxAns : Aux → Type} {statements : E.Stmt → Prop}
    {result : α → Prop} {program : Program E.sig α}
    (only : Program.Only (Autocommit statements) result program) :
    Program.Only (Autocommit (E := E.extend Aux AuxAns) statements) result
      (Engine.lift program) := by
  induction program with
  | ret value => exact only
  | call op next inductionHypothesis =>
      cases op with
      | begin => exact only.1.elim
      | commit => exact only.1.elim
      | rollback => exact only.1.elim
      | exec stmt => exact ⟨only.1, fun answer => inductionHypothesis answer (only.2 answer)⟩
      | aux op => exact ⟨trivial, fun answer => inductionHypothesis answer (only.2 answer)⟩

section Rules

variable {post : Assertion E α} {known : E.Data} {held : E.Row → Prop}

theorem safeThen_begin {next : Unit → Program E.sig α}
    (started : ∀ data, good data → E.AgreeOn held known data →
      SafeThen good permitted post (next ()) data (fun _ => False) (some [])) :
    SafeThen good permitted post (.call .begin next) known held none :=
  fun data goodData agree => ⟨goodData, started data goodData agree⟩

/-- A statement in a transaction: the program goes on from its success, and from a
failure whatever the engine has left of the transaction. -/
theorem safeThen_exec {stmt : E.Stmt} {next : E.OpAns (.exec stmt) → Program E.sig α}
    {pending : List E.Write}
    (failed : ∀ data error anyHeld anyTransaction, good data →
      SafeThen good permitted post (next (.error error)) data anyHeld anyTransaction)
    (performed : ∀ data, good data → E.AgreeOn held known data →
      permitted stmt held (E.applyAll data pending) → ∀ answered writes,
      E.eval stmt (E.applyAll data pending) = .ok (answered, writes) →
      SafeThen good permitted post (next (.ok answered)) data
        (fun row => row ∈ E.locks stmt (E.applyAll data pending) ∨ held row)
        (some (pending ++ writes))) :
    SafeThen good permitted post (.call (.exec stmt) next) known held (some pending) :=
  fun data goodData agree =>
    ⟨fun error => ⟨failed data error _ _ goodData, failed data error _ _ goodData⟩,
      performed data goodData agree⟩

/-- A commit: its images must keep `good`; when it fails, they are gone. -/
theorem safeThen_commit {next : E.OpAns .commit → Program E.sig α} {pending : List E.Write}
    (keeps : ∀ data, good data → E.AgreeOn held known data → good (E.applyAll data pending))
    (continues : ∀ data answered, good data →
      SafeThen good permitted post (next answered) data (fun _ => False) none) :
    SafeThen good permitted post (.call .commit next) known held (some pending) :=
  fun data goodData agree =>
    have goodAfter := keeps data goodData agree
    ⟨goodAfter, continues _ _ goodAfter, fun _ => continues _ _ goodData⟩

theorem safeThen_rollback {next : Unit → Program E.sig α}
    {transaction : Option (List E.Write)}
    (continues : ∀ data, good data →
      SafeThen good permitted post (next ()) data (fun _ => False) none) :
    SafeThen good permitted post (.call .rollback next) known held transaction :=
  fun data goodData _ => continues data goodData

end Rules

theorem SafeThen.unfinished {program : Program E.sig α} {known : E.Data}
    {held : E.Row → Prop} {transaction : Option (List E.Write)}
    (safe : Safe good permitted program known held transaction) :
    SafeAt good permitted known held transaction (unfinished program) := by
  cases program with
  | ret value => exact safe
  | call op next => exact safe

end Safe

/-! ## Interleaved sessions -/

namespace Store

variable (store : Store E) (session : Nat)

@[simp]
theorem release_committed : (store.release session).committed = store.committed :=
  rfl

@[simp]
theorem commit_committed : (store.commit session).committed = store.view session :=
  rfl

@[simp]
theorem begin_committed : (store.begin session).committed = store.view session :=
  rfl

@[simp]
theorem release_transaction_self : (store.release session).transaction session = none := by
  simp [release]

@[simp]
theorem begin_transaction_self : (store.begin session).transaction session = some [] := by
  simp [begin]

theorem held_release_self :
    (fun row => (store.release session).owner row = some session) = fun _ => False := by
  funext row
  by_cases own : store.owner row = some session <;> simp [release, own]

variable {store session}

/-- A session's rows and transaction are its own business: another session's
transaction ending does not touch them. -/
theorem held_release_other {other : Nat} (different : other ≠ session) :
    (fun row => (store.release session).owner row = some other) =
      fun row => store.owner row = some other := by
  funext row
  by_cases own : store.owner row = some session
  · simp [release, own, Ne.symm different]
  · simp [release, own]

theorem transaction_release_other {other : Nat} (different : other ≠ session) :
    (store.release session).transaction other = store.transaction other := by
  simp [release, different]

end Store

/-- A session stands at a safe point of its program and holds every row it has
written. -/
structure At (good : E.Data → Prop) (permitted : E.Stmt → (E.Row → Prop) → E.Data → Prop)
    (session : Nat) (store : Store E) (point : Option (Program E.sig α)) : Prop where
  safe : SafeAt good permitted store.committed
    (fun row => store.owner row = some session) (store.transaction session) point
  held : ∀ write ∈ store.pending session, store.owner (E.target write) = some session

section Interleaved

variable {good : E.Data → Prop} {permitted : E.Stmt → (E.Row → Prop) → E.Data → Prop}
variable {session other : Nat} {store : Store E} {point : Option (Program E.sig α)}

theorem At.release_self {program : Program E.sig α}
    (safe : Safe good permitted program store.committed (fun _ => False) none) :
    At good permitted session (store.release session) (unfinished program) := by
  refine ⟨?_, ?_⟩
  · rw [Store.held_release_self, Store.release_transaction_self]
    exact safe.unfinished
  · intro write member
    simp [Store.pending] at member

/-- Ending the transaction of one session leaves another where it is, as long as
the committed data keep the rows of the other. -/
theorem At.release_other (different : other ≠ session)
    (stands : At good permitted other store point) {data : E.Data}
    (agree : E.AgreeOn (fun row => store.owner row = some other) store.committed data) :
    At good permitted other ({ store with committed := data }.release session) point := by
  refine ⟨?_, ?_⟩
  · rw [Store.held_release_other different, Store.transaction_release_other different]
    exact stands.safe.stable agree
  · intro write member
    have owned : store.owner (E.target write) = some other := by
      apply stands.held
      simpa [Store.pending, Store.transaction_release_other different] using member
    simp [Store.release, owned, different]

/-- The images of one session lie in rows no other session holds. -/
theorem agreeOn_view_other (different : other ≠ session)
    (held : ∀ write ∈ store.pending session, store.owner (E.target write) = some session) :
    E.AgreeOn (fun row => store.owner row = some other) store.committed
      (store.view session) := by
  intro row ownedByOther
  apply Engine.same_applyAll
  intro write member same
  subst same
  rw [held write member, Option.some.injEq] at ownedByOther
  exact different ownedByOther.symm

theorem At.commit_other (different : other ≠ session)
    (stands : At good permitted other store point)
    (held : ∀ write ∈ store.pending session, store.owner (E.target write) = some session) :
    At good permitted other (store.commit session) point :=
  stands.release_other different (agreeOn_view_other different held)

/-- Starting a transaction, with the implicit end of one that is open. -/
theorem At.begin_self {program : Program E.sig α}
    (safe : Safe good permitted program (store.view session) (fun _ => False) (some [])) :
    At good permitted session (store.begin session) (unfinished program) := by
  refine ⟨?_, ?_⟩
  · have held : (fun row => (store.begin session).owner row = some session) = fun _ => False :=
      Store.held_release_self _ _
    rw [held, Store.begin_transaction_self]
    exact safe.unfinished
  · intro write member
    simp [Store.pending] at member

theorem At.begin_other (different : other ≠ session)
    (stands : At good permitted other store point)
    (held : ∀ write ∈ store.pending session, store.owner (E.target write) = some session) :
    At good permitted other (store.begin session) point := by
  have ended := stands.commit_other different held
  have transaction : (store.begin session).transaction other =
      (store.commit session).transaction other := by
    simp [Store.begin, different]
  refine ⟨?_, ?_⟩
  · rw [transaction]
    exact ended.safe
  · intro write member
    rw [Store.pending, transaction] at member
    exact ended.held write member

theorem owner_ne_of_not_heldByOther {row : E.Row}
    (free : store.heldByOther session row = false) (different : other ≠ session) :
    store.owner row ≠ some other := by
  intro owned
  simp [Store.heldByOther, owned, different] at free

/-- A successful statement leaves its session at the next safe point. -/
theorem At.record_self {stmt : E.Stmt} {next : E.OpAns (.exec stmt) → Program E.sig α}
    {answered : E.Ans stmt} {writes : List E.Write}
    (stands : At good permitted session store (some (.call (.exec stmt) next)))
    (goodData : good store.committed)
    (permit : permitted stmt (fun row => store.owner row = some session) (store.view session))
    (evaluated : E.eval stmt (store.view session) = .ok (answered, writes)) :
    let recorded := store.record session (E.locks stmt (store.view session)) writes
    good recorded.committed ∧
      At good permitted session recorded (unfinished (next (.ok answered))) := by
  have continues := (stands.safe store.committed goodData (.refl _ _)).2 permit
    answered writes evaluated
  have rowsHeld := E.target_mem_locks evaluated
  cases mode : store.transaction session with
  | none =>
      simp only [mode] at continues
      simp only [Store.record, mode]
      refine ⟨continues.1, ⟨?_, ?_⟩⟩
      · simpa only [mode] using continues.2.unfinished
      · intro write member
        simp [Store.pending, mode] at member
  | some images =>
      have view : store.view session = E.applyAll store.committed images := by
        simp [Store.view, Store.pending, mode]
      simp only [mode, ← view] at continues
      simp only [Store.record, mode]
      refine ⟨goodData, ⟨?_, ?_⟩⟩
      · have held : (fun row => (if row ∈ E.locks stmt (store.view session) then some session
            else store.owner row) = some session) =
            fun row => row ∈ E.locks stmt (store.view session) ∨
              store.owner row = some session := by
          funext row
          by_cases locked : row ∈ E.locks stmt (store.view session) <;> simp [locked]
        simp only [held, if_true]
        exact continues.unfinished
      · intro write member
        simp only [Store.pending, if_true, Option.getD_some, List.mem_append] at member
        rcases member with earlier | written
        · have owned := stands.held write (by simpa [Store.pending, mode] using earlier)
          simp [owned]
        · simp [rowsHeld write written]

/-- A successful statement of one session leaves another where it is. -/
theorem At.record_other {stmt : E.Stmt} {answered : E.Ans stmt}
    {writes : List E.Write} (different : other ≠ session)
    (stands : At good permitted other store point)
    (free : ∀ row ∈ E.waits stmt (store.view session), store.heldByOther session row = false)
    (evaluated : E.eval stmt (store.view session) = .ok (answered, writes)) :
    At good permitted other
      (store.record session (E.locks stmt (store.view session)) writes) point := by
  have lockedFree : ∀ row ∈ E.locks stmt (store.view session), store.owner row ≠ some other :=
    fun row locked => owner_ne_of_not_heldByOther
      (free row (E.locks_subset_waits _ _ locked)) different
  cases mode : store.transaction session with
  | none =>
      simp only [Store.record, mode]
      refine ⟨?_, stands.held⟩
      refine stands.safe.stable ?_
      intro row ownedByOther
      apply Engine.same_applyAll
      intro write member same
      subst same
      exact lockedFree _ (E.target_mem_locks evaluated write member) ownedByOther
  | some images =>
      simp only [Store.record, mode]
      have owner : ∀ row, ((if row ∈ E.locks stmt (store.view session) then some session
          else store.owner row) = some other) = (store.owner row = some other) := by
        intro row
        by_cases locked : row ∈ E.locks stmt (store.view session)
        · have unowned := lockedFree row locked
          simp [locked, unowned, Ne.symm different]
        · simp [locked]
      refine ⟨?_, ?_⟩
      · simp only [owner, if_neg different]
        exact stands.safe
      · intro write member
        simp only [owner]
        apply stands.held write
        simpa [Store.pending, different] using member

/-- The statements performed in a pool are permitted on the data they see. -/
def Permits (permitted : E.Stmt → (E.Row → Prop) → E.Data → Prop)
    (allowed : Pool E.sig α (Store E) → Action ι (Choice E) → Prop) : Prop :=
  ∀ pool session stmt next, allowed pool (.advance session .proceed) →
    pool.running.lookup session = some (.call (.exec stmt) next) →
    permitted stmt (fun row => pool.shared.owner row = some session) (pool.shared.view session)

/-- Inversion of a performed statement: nothing it waits for is held elsewhere, and
either it fails, or its effect is recorded. -/
theorem Store.answer_exec {stmt : E.Stmt} {answered : Except E.Error (E.Ans stmt)}
    {after : Store E}
    (step : Store.answer session (.exec stmt) .proceed store = some (answered, after)) :
    (∀ row ∈ E.waits stmt (store.view session), store.heldByOther session row = false) ∧
      ((∃ error, answered = .error error ∧ after = store) ∨
        ∃ value writes, E.eval stmt (store.view session) = .ok (value, writes) ∧
          answered = .ok value ∧
          after = store.record session (E.locks stmt (store.view session)) writes) := by
  simp only [Store.answer] at step
  split at step
  · contradiction
  · rename_i free
    refine ⟨by simpa using free, ?_⟩
    split at step
    · rename_i error _
      cases step
      exact .inl ⟨error, rfl, rfl⟩
    · rename_i value writes evaluated
      cases step
      exact .inr ⟨value, writes, evaluated, rfl, rfl⟩

/-- What one answered call does to the session that made it. -/
theorem At.answered_self {op : E.Op} {next : E.OpAns op → Program E.sig α}
    {choice : Choice E} {answered : E.OpAns op} {after : Store E}
    (stands : At good permitted session store (some (.call op next)))
    (goodData : good store.committed)
    (permit : ∀ stmt, op = .exec stmt → choice = .proceed →
      permitted stmt (fun row => store.owner row = some session) (store.view session))
    (step : Store.answer session op choice store = some (answered, after)) :
    good after.committed ∧ At good permitted session after (unfinished (next answered)) := by
  cases op with
  | begin =>
      have now := stands.safe store.committed goodData (.refl _ _)
      cases choice with
      | proceed =>
          cases step
          exact ⟨now.1, .begin_self now.2⟩
      | _ => contradiction
  | exec stmt =>
      have now := stands.safe store.committed goodData (.refl _ _)
      cases choice with
      | proceed =>
          obtain ⟨-, ⟨error, rfl, rfl⟩ | ⟨value, writes, evaluated, rfl, rfl⟩⟩ :=
            Store.answer_exec step
          · exact ⟨goodData, (now.1 error).1.unfinished, stands.held⟩
          · exact stands.record_self goodData (permit stmt rfl rfl) evaluated
      | refuse error =>
          cases step
          exact ⟨goodData, (now.1 error).1.unfinished, stands.held⟩
      | abort error =>
          cases step
          exact ⟨goodData, .release_self (now.1 error).2⟩
      | answer answers => contradiction
  | commit =>
      have now := stands.safe store.committed goodData (.refl _ _)
      cases choice with
      | proceed =>
          cases step
          exact ⟨now.1, .release_self now.2.1⟩
      | refuse error =>
          cases step
          exact ⟨goodData, .release_self (now.2.2 error)⟩
      | _ => contradiction
  | rollback =>
      have now := stands.safe store.committed goodData (.refl _ _)
      cases choice with
      | proceed =>
          cases step
          exact ⟨goodData, .release_self now⟩
      | _ => contradiction
  | aux op =>
      have now := stands.safe store.committed goodData (.refl _ _)
      cases choice with
      | answer answers =>
          cases step
          exact ⟨goodData, (now _).unfinished, stands.held⟩
      | _ => contradiction

/-- What one answered call does to the other sessions: nothing. -/
theorem At.answered_other {op : E.Op} {choice : Choice E} {answered : E.OpAns op}
    {after : Store E} (different : other ≠ session)
    (stands : At good permitted other store point)
    (held : ∀ write ∈ store.pending session, store.owner (E.target write) = some session)
    (step : Store.answer session op choice store = some (answered, after)) :
    At good permitted other after point := by
  have ended : At good permitted other (store.release session) point :=
    stands.release_other different (.refl _ _)
  cases op with
  | begin =>
      cases choice with
      | proceed =>
          cases step
          exact stands.begin_other different held
      | _ => contradiction
  | exec stmt =>
      cases choice with
      | proceed =>
          obtain ⟨free, ⟨error, rfl, rfl⟩ | ⟨value, writes, evaluated, rfl, rfl⟩⟩ :=
            Store.answer_exec step
          · exact stands
          · exact stands.record_other different free evaluated
      | refuse error =>
          cases step
          exact stands
      | abort error =>
          cases step
          exact ended
      | answer answers => contradiction
  | commit =>
      cases choice with
      | proceed =>
          cases step
          exact stands.commit_other different held
      | refuse error =>
          cases step
          exact ended
      | _ => contradiction
  | rollback =>
      cases choice with
      | proceed =>
          cases step
          exact ended
      | _ => contradiction
  | aux op =>
      cases choice with
      | answer answers =>
          cases step
          exact stands
      | _ => contradiction

/-- Safe programs respect the invariant, whatever the order of their statements. -/
theorem respects_of_safe {code : ι → Program E.sig α}
    {allowed : Pool E.sig α (Store E) → Action ι (Choice E) → Prop}
    (permits : Permits permitted allowed)
    (safe : ∀ pool process request, allowed pool (.start process request) →
      ∀ data, good data → Safe good permitted (code request) data (fun _ => False) none) :
    Respects code Store.answer allowed (fun store : Store E => good store.committed)
      (At good permitted) := by
  refine ⟨?_, ?_⟩
  · intro pool process request holds allowedStep free
    have idle := holds.point process
    rw [free] at idle
    obtain ⟨⟨autocommit, nothingHeld⟩, held⟩ := idle
    refine ⟨?_, held⟩
    have noRows : (fun row => pool.shared.owner row = some process) = fun _ => False := by
      funext row
      exact propext (iff_false_intro (nothingHeld row))
    rw [autocommit, noRows]
    exact (safe pool process request allowedStep _ holds.shared).unfinished
  · intro pool process choice op rest answered after holds allowedStep stored step
    have stands := holds.point process
    rw [stored] at stands
    obtain ⟨goodAfter, self⟩ := stands.answered_self holds.shared
      (fun stmt isExec proceeds => by
        subst isExec proceeds
        exact permits pool process stmt rest allowedStep stored) step
    exact ⟨goodAfter, self, fun other different =>
      (holds.point other).answered_other different stands.held step⟩

/-- A store nobody works on. -/
def Store.idle (data : E.Data) : Store E :=
  ⟨data, fun _ => none, fun _ => none⟩

/-- Sessions that run safe programs keep the committed data good in every state
they reach from an idle store. -/
theorem good_of_reachable {code : ι → Program E.sig α}
    {allowed : Pool E.sig α (Store E) → Action ι (Choice E) → Prop}
    (permits : Permits permitted allowed)
    (safe : ∀ pool process request, allowed pool (.start process request) →
      ∀ data, good data → Safe good permitted (code request) data (fun _ => False) none)
    {data : E.Data} (initial : good data) {target : Pool E.sig α (Store E)}
    (reachable : ReachableUnder (next code Store.answer) allowed ⟨Store.idle data, ∅⟩ target) :
    good target.shared.committed := by
  refine ((respects_of_safe permits safe).invariant ⟨initial, ?_⟩ reachable).shared
  intro process
  refine ⟨?_, ?_⟩
  · simp [SafeAt, Store.idle]
  · simp [Store.idle, Store.pending]

/-! ### Sessions in autocommit mode -/

/-- A call of one session does not end or change the transaction of another. -/
theorem Store.transaction_answer_other {op : E.Op} {choice : Choice E} {answered : E.OpAns op}
    {after : Store E} (different : other ≠ session)
    (step : Store.answer session op choice store = some (answered, after)) :
    after.transaction other = store.transaction other := by
  cases op with
  | exec stmt =>
      cases choice with
      | proceed =>
          rcases (Store.answer_exec step).2 with
            ⟨error, rfl, rfl⟩ | ⟨value, writes, evaluated, rfl, rfl⟩
          · rfl
          · cases mode : store.transaction session <;> simp [Store.record, mode, different]
      | refuse error =>
          cases step
          rfl
      | abort error =>
          cases step
          exact Store.transaction_release_other different
      | answer answers => contradiction
  | begin =>
      cases choice with
      | proceed =>
          cases step
          simp [Store.begin, Store.commit, Store.release, different]
      | _ => contradiction
  | commit =>
      cases choice with
      | proceed =>
          cases step
          simp [Store.commit, Store.release, different]
      | refuse error =>
          cases step
          exact Store.transaction_release_other different
      | _ => contradiction
  | rollback =>
      cases choice with
      | proceed =>
          cases step
          exact Store.transaction_release_other different
      | _ => contradiction
  | aux op =>
      cases choice with
      | answer answers =>
          cases step
          rfl
      | _ => contradiction

/-- A call of a session in autocommit mode: the session stays in it, and the committed data
stay as they are or take the images of one statement. -/
theorem Store.answer_autocommit {statements : E.Stmt → Prop} {op : E.Op} {choice : Choice E}
    {answered : E.OpAns op} {after : Store E} (autocommit : store.transaction session = none)
    (allowed : Autocommit statements op)
    (step : Store.answer session op choice store = some (answered, after)) :
    after.transaction session = none ∧
      (after.committed = store.committed ∨
        ∃ stmt value writes, op = .exec stmt ∧ choice = .proceed ∧ statements stmt ∧
          E.eval stmt store.committed = .ok (value, writes) ∧
          after.committed = E.applyAll store.committed writes) := by
  cases op with
  | begin => exact allowed.elim
  | commit => exact allowed.elim
  | rollback => exact allowed.elim
  | aux op =>
      cases choice with
      | answer answers =>
          cases step
          exact ⟨autocommit, .inl rfl⟩
      | _ => contradiction
  | exec stmt =>
      cases choice with
      | proceed =>
          have view : store.view session = store.committed := by
            simp [Store.view, Store.pending, autocommit, Engine.applyAll]
          rcases (Store.answer_exec step).2 with
            ⟨error, rfl, rfl⟩ | ⟨value, writes, evaluated, rfl, rfl⟩
          · exact ⟨autocommit, .inl rfl⟩
          · rw [view] at evaluated
            constructor
            · simp [Store.record, autocommit]
            · refine .inr ⟨stmt, value, writes, rfl, rfl, allowed, evaluated, ?_⟩
              simp [Store.record, autocommit]
      | refuse error =>
          cases step
          exact ⟨autocommit, .inl rfl⟩
      | abort error =>
          cases step
          exact ⟨Store.release_transaction_self store session, .inl rfl⟩
      | answer answers => contradiction

/-- What is known of a session that never opens a transaction. -/
def InAutocommit (statements : E.Stmt → Prop) (session process : Nat) (store : Store E)
    (point : Option (Program E.sig α)) : Prop :=
  process = session → store.transaction session = none ∧
    ∀ program, point = some program →
      Program.Only (Autocommit statements) (fun _ => True) program

/-- A session all of whose programs run in autocommit mode stays in it. -/
theorem respects_of_autocommit {statements : E.Stmt → Prop} {code : ι → Program E.sig α}
    {allowed : Pool E.sig α (Store E) → Action ι (Choice E) → Prop}
    (only : ∀ pool request, allowed pool (.start session request) →
      Program.Only (Autocommit statements) (fun _ => True) (code request)) :
    Respects code Store.answer allowed (fun _ : Store E => True)
      (InAutocommit statements session) := by
  constructor
  · rintro pool process request holds allowedStep free rfl
    constructor
    · exact (holds.point process rfl).1
    · intro program running
      have started := only pool request allowedStep
      cases begun : code request with
      | ret value => simp [begun, unfinished] at running
      | call op next =>
          simp only [begun, unfinished, Option.some.injEq] at running
          rw [← running, ← begun]
          exact started
  · intro pool process choice op rest answered after holds allowedStep stored step
    refine ⟨trivial, ?_, ?_⟩
    · rintro rfl
      obtain ⟨autocommit, only⟩ := holds.point process rfl
      have now := only _ stored
      constructor
      · exact (Store.answer_autocommit autocommit now.1 step).1
      · intro program running
        have continues := now.2 answered
        cases left : rest answered with
        | ret value => simp [left, unfinished] at running
        | call op next =>
            simp only [left, unfinished, Option.some.injEq] at running
            rw [← running, ← left]
            exact continues
    · rintro other different rfl
      constructor
      · rw [Store.transaction_answer_other different step]
        exact (holds.point other rfl).1
      · exact (holds.point other rfl).2

end Interleaved

end MiniS3.Lib.RowLocks
