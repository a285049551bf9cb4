import MiniS3.Lib.Interleaving

/-!
# Protocols of interleaved programs

A protocol is about what a process holds of the shared state: the calls it may make then, and what
it holds after each answer.  A program follows a protocol by itself, whatever runs beside it.

If every call that may be made keeps an assertion on the shared state, changes what its process
holds as the protocol says, and leaves alone what the others hold, then an interleaving of
programs that follow the protocol keeps the assertion, and each process holds what its program
has come to.
-/

namespace MiniS3.Lib.Interleaving

open Transition

variable {S : Signature} {α β σ χ ι γ : Type}

/-- What a process may do with what it holds. -/
structure Protocol (S : Signature) (γ : Type) where
  /-- A call that the process may make. -/
  may : γ → S.Op → Prop
  /-- An answer that a call can get. -/
  can : (op : S.Op) → S.Ans op → Prop
  /-- What the process holds after the answer. -/
  after : γ → (op : S.Op) → S.Ans op → γ

namespace Protocol

variable (protocol : Protocol S γ)

/-- A process that holds this may run the program, and `ends` is true of the value and of what it
holds then. -/
def Follows (ends : α → γ → Prop) : Program S α → γ → Prop
  | .ret value, held => ends value held
  | .call op next, held =>
      protocol.may held op ∧ ∀ answer, protocol.can op answer →
        Follows ends (next answer) (protocol.after held op answer)

variable {protocol}

theorem Follows.mono {weak strong : α → γ → Prop} {program : Program S α} {held : γ}
    (follows : protocol.Follows strong program held)
    (implies : ∀ value after, strong value after → weak value after) :
    protocol.Follows weak program held := by
  induction program generalizing held with
  | ret value => exact implies value held follows
  | call op next inductionHypothesis =>
      exact ⟨follows.1, fun answer can => inductionHypothesis answer (follows.2 answer can)⟩

/-- Sequencing: what is held after the first part is held before the second. -/
theorem Follows.bind {middle : α → γ → Prop} {ends : β → γ → Prop} {program : Program S α}
    {rest : α → Program S β} {held : γ} (first : protocol.Follows middle program held)
    (second : ∀ value between, middle value between → protocol.Follows ends (rest value) between) :
    protocol.Follows ends (program >>= rest) held := by
  induction program generalizing held with
  | ret value => exact second value held first
  | call op next inductionHypothesis =>
      exact ⟨first.1, fun answer can => inductionHypothesis answer (first.2 answer can)⟩

/-! ## Interleavings -/

/-- The calls do with the shared state what the protocol says.  `holds` tells what a process holds
of it. -/
structure Sound (protocol : Protocol S γ) (answer : Nat → Program.Interface S χ σ)
    (shared : σ → Prop) (holds : Nat → σ → γ → Prop) : Prop where
  step : ∀ process op choice state held answered after, shared state → holds process state held →
    protocol.may held op → answer process op choice state = some (answered, after) →
    protocol.can op answered ∧ shared after ∧ holds process after (protocol.after held op answered) ∧
      ∀ other otherHeld, other ≠ process → holds other state otherHeld →
        holds other after otherHeld

/-- A process holds what its program may go on with, or what it may be left with. -/
def Point (protocol : Protocol S γ) (holds : Nat → σ → γ → Prop) (left : γ → Prop) (process : Nat)
    (state : σ) : Option (Program S α) → Prop
  | none => ∃ held, holds process state held ∧ left held
  | some program => ∃ held, holds process state held ∧ protocol.Follows (fun _ => left) program held

theorem Point.of_follows {holds : Nat → σ → γ → Prop} {left : γ → Prop} {process : Nat} {state : σ}
    {held : γ} {program : Program S α} (holding : holds process state held)
    (follows : protocol.Follows (fun _ => left) program held) :
    protocol.Point holds left process state (unfinished program) := by
  cases program with
  | ret value => exact ⟨held, holding, follows⟩
  | call op next => exact ⟨held, holding, follows⟩

/-- The rule for programs that follow a protocol. -/
theorem Sound.invariant {answer : Nat → Program.Interface S χ σ} {shared : σ → Prop}
    {holds : Nat → σ → γ → Prop} (sound : protocol.Sound answer shared holds) {left : γ → Prop}
    {code : ι → Program S α} {allowed : Pool S α σ → Action ι χ → Prop}
    (begins : ∀ process state held request, holds process state held → left held →
      ∃ fresh, holds process state fresh ∧ protocol.Follows (fun _ => left) (code request) fresh)
    {source target : Pool S α σ} (initial : Holds shared (protocol.Point holds left) source)
    (reachable : ReachableUnder (next code answer) allowed source target) :
    Holds shared (protocol.Point holds left) target := by
  have respects : Respects code answer allowed shared (protocol.Point holds left) := by
    constructor
    · intro pool process request holding _ free
      have atRest := holding.point process
      rw [free] at atRest
      obtain ⟨held, isHeld, isLeft⟩ := atRest
      obtain ⟨fresh, isFresh, follows⟩ := begins process _ held request isHeld isLeft
      exact .of_follows isFresh follows
    · intro pool process choice op rest answered after holding _ running answers
      have moving := holding.point process
      rw [running] at moving
      obtain ⟨held, isHeld, may, follows⟩ := moving
      obtain ⟨can, kept, holdsNow, undisturbed⟩ := sound.step process op choice pool.shared held
        answered after holding.shared isHeld may answers
      refine ⟨kept, .of_follows holdsNow (follows answered can), ?_⟩
      intro other different
      have still := holding.point other
      cases found : pool.running.lookup other with
      | none =>
          rw [found] at still
          obtain ⟨otherHeld, isHeld, isLeft⟩ := still
          exact ⟨otherHeld, undisturbed other otherHeld different isHeld, isLeft⟩
      | some program =>
          rw [found] at still
          obtain ⟨otherHeld, isHeld, follows⟩ := still
          exact ⟨otherHeld, undisturbed other otherHeld different isHeld, follows⟩
  exact respects.invariant initial reachable

end Protocol

end MiniS3.Lib.Interleaving
