import Mathlib

/-!
# Tokens

A token goes down a chain of calls, and each of them may free it or put it on a
queue. `Fate` counts how often: what a chain does is the sum of what its parts do,
and a token is well kept if it meets one of the two, once.
-/

namespace Framework

/-- How often a token is freed, and how often it is queued. -/
@[ext]
structure Fate where
  freed : Nat
  queued : Nat
  deriving DecidableEq

namespace Fate

/-- Nothing happens to the token. -/
def dropped : Fate := ⟨0, 0⟩

def free : Fate := ⟨1, 0⟩

def queue : Fate := ⟨0, 1⟩

instance : Add Fate := ⟨fun f g => ⟨f.freed + g.freed, f.queued + g.queued⟩⟩

/-- The token is freed or queued, once. -/
def Once (f : Fate) : Prop := f.freed + f.queued = 1

instance : DecidablePred Once := fun f => inferInstanceAs (Decidable (f.freed + f.queued = 1))

variable {f g : Fate}

@[simp] theorem once_free : free.Once := rfl

@[simp] theorem once_queue : queue.Once := rfl

@[simp] theorem not_once_dropped : ¬ dropped.Once := nofun

@[simp] theorem dropped_add : dropped + f = f :=
  Fate.ext (Nat.zero_add f.freed) (Nat.zero_add f.queued)

/-- What has been freed must not meet anything else. -/
@[simp] theorem once_free_add : (free + f).Once ↔ f = dropped := by
  show 1 + f.freed + (0 + f.queued) = 1 ↔ f = dropped
  rw [Fate.ext_iff]
  show _ ↔ f.freed = 0 ∧ f.queued = 0
  omega

end Fate

end Framework
