/-
# `Proofs.InPlace` — operations that change a state in place

An operation in place goes through its steps one by one, and what it has changed when a step fails stays changed.  So that
it leaves its state alone when it fails is a property it has or has not: `Atomic` says that it comes to the same as a
function that gives the new state, or a failure and no state at all.

The model has each operation as a function from a state to a new one, or to an error, and so could not say that something
was changed before the error.  Here the operation is written once more with its steps, in `EStateM`, and shown to come to
that function.  Two rules are enough for the operations of this project: a step that may fail but changes nothing comes
first (`Atomic.ofExcept_bind`), and changes that do not fail come last (`Atomic.bind_modify`).
-/

namespace Consolidation.InPlace

variable {ε σ τ α β : Type}

/-- The state that an operation leaves, whether it fails or not. -/
def stateOf : EStateM.Result ε σ α → σ
  | .ok _ s => s
  | .error _ s => s

def onPart (get : σ → τ) (set : τ → σ → σ) (x : EStateM ε τ α) : EStateM ε σ α := fun s =>
  match x.run (get s) with
  | .ok a t => .ok a (set t s)
  | .error e t => .error e (set t s)

/-- The result of an operation that leaves the state `s` alone when it fails. -/
def orKept (s : σ) : Except ε (α × σ) → EStateM.Result ε σ α
  | .ok (a, s') => .ok a s'
  | .error e => .error e s

/-- An operation in place comes to what a function gives, and to nothing when that fails. -/
def Atomic (x : EStateM ε σ α) (f : σ → Except ε (α × σ)) : Prop := ∀ s, x.run s = orKept s (f s)

theorem Atomic.run_of_ok {x : EStateM ε σ α} {f : σ → Except ε (α × σ)} (h : Atomic x f) {s s' : σ} {a : α}
    (hf : f s = .ok (a, s')) : x.run s = .ok a s' := by
  rw [h s, hf]
  rfl

theorem Atomic.run_of_error {x : EStateM ε σ α} {f : σ → Except ε (α × σ)} (h : Atomic x f) {s : σ} {e : ε}
    (hf : f s = .error e) : x.run s = .error e s := by
  rw [h s, hf]
  rfl

/-! ## Atomic operations of several steps

What comes before an atomic operation must change nothing, and what follows must not fail. -/

/-- A step that may fail but changes nothing can come first. -/
theorem Atomic.ofExcept_bind {result : Except ε α} {x : α → EStateM ε σ β} {f : α → σ → Except ε (β × σ)}
    (h : ∀ a, Atomic (x a) (f a)) : Atomic (MonadExcept.ofExcept result >>= x) (fun s => result.bind (fun a => f a s)) := by
  cases result with
  | ok a => exact h a
  | error e => exact fun _ => rfl

theorem Atomic.bind_modify {x : EStateM ε σ α} {f : σ → Except ε (α × σ)} (h : Atomic x f) (g : σ → σ) :
    Atomic (x >>= fun _ => modify g) (fun s => (f s).map (fun result => ((), g result.2))) := by
  intro s
  have hx := h s
  dsimp only
  rw [EStateM.run_bind, hx]
  cases f s with
  | ok result => rfl
  | error e => rfl

theorem Atomic.onPart {get : σ → τ} {set : τ → σ → σ} (hset : ∀ s, set (get s) s = s) {x : EStateM ε τ α}
    {f : τ → Except ε (α × τ)} (h : Atomic x f) :
    Atomic (onPart get set x) (fun s => (f (get s)).map (fun result => (result.1, set result.2 s))) := by
  intro s
  have hx : x.run (get s) = orKept (get s) (f (get s)) := h (get s)
  show InPlace.onPart get set x s = orKept s ((f (get s)).map fun result => (result.1, set result.2 s))
  rw [InPlace.onPart, hx]
  cases f (get s) with
  | ok result => rfl
  | error e => exact congrArg (EStateM.Result.error e) (hset s)

end Consolidation.InPlace
