/-!
# Cancellation

A run can be cancelled for a reason, once: a `Cancellation` keeps the first reason that it is given.
Many hold the same one. `Contexts` keeps any number of contexts in families, a context and its
clones: what one member is cancelled for, every member sees, and whoever waits at one of them is
told.
-/

namespace LoadGenerator

inductive CancelReason where
  | interrupted
  | transportFailure (target message : String)
  deriving DecidableEq, Repr

/-- The first reason given for cancelling, if any. -/
structure Cancellation where
  reason : Option CancelReason := none
  deriving DecidableEq, Repr, Inhabited

namespace Cancellation

def isCancelled (c : Cancellation) : Bool :=
  c.reason.isSome

/-- Cancels for a reason, which counts if it is the first. -/
def cancel (c : Cancellation) (reason : CancelReason) : Cancellation :=
  if c.isCancelled then c else ⟨some reason⟩

/-- Whether cancelling now would count. -/
def accepts (c : Cancellation) : Bool :=
  !c.isCancelled

variable {c : Cancellation} {reason : CancelReason}

theorem reason_cancel_eq (c : Cancellation) (reason : CancelReason) :
    (c.cancel reason).reason = c.reason.or (some reason) := by
  unfold cancel isCancelled
  cases h : c.reason with
  | none => rfl
  | some first => exact h

theorem reason_cancel (h : c.reason = some reason) (other : CancelReason) :
    (c.cancel other).reason = some reason := by
  rw [reason_cancel_eq, h]
  rfl

theorem isCancelled_eq : c.isCancelled = true ↔ ∃ reason, c.reason = some reason :=
  Option.isSome_iff_exists

theorem isCancelled_cancel (c : Cancellation) (reason : CancelReason) :
    (c.cancel reason).isCancelled = true := by
  unfold cancel
  split
  · assumption
  · rfl

end Cancellation

/-- Contexts in families. A family has one cancellation, a context is a member of one family. -/
structure Contexts where
  families : List Cancellation := [⟨none⟩]
  members : List Nat := [0]
  deriving DecidableEq, Repr

namespace Contexts

def family (c : Contexts) (i : Nat) : Nat :=
  (c.members[i]?).getD 0

def get (c : Contexts) (i : Nat) : Cancellation :=
  (c.families[c.family i]?).getD ⟨none⟩

def toList (c : Contexts) : List Cancellation :=
  (List.range c.members.length).map c.get

def new (c : Contexts) : Contexts × Nat :=
  (⟨c.families ++ [⟨none⟩], c.members ++ [c.families.length]⟩, c.members.length)

/-- Adds a context of the family of another one, and gives its number. -/
def clone (c : Contexts) (i : Nat) : Contexts × Nat :=
  (⟨c.families, c.members ++ [c.family i]⟩, c.members.length)

/-- Cancels through a context: whether the reason counts. -/
def cancel (c : Contexts) (i : Nat) (reason : CancelReason) : Contexts × Bool :=
  (⟨c.families.modify (c.family i) (·.cancel reason), c.members⟩, (c.get i).accepts)

end Contexts

end LoadGenerator
