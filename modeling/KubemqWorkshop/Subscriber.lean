import Mathlib.Data.Nat.Notation

/-!
# Subscribers (rxjs)

A callback that is passed to `subscribe` is wrapped twice: the source notifies a
`Subscriber`, which forwards to a `SafeSubscriber`, which calls the callback and
catches what it throws. Each of the two has flags of its own, and each ends the
other. The source never gets control back while they disagree: a subscriber is
`new` or `ended`, and there is one lemma for each notification in each of the two
(`next_new`, `next_ended` and so on). Whatever ends it first runs the teardown,
once, and nothing passes after that.
-/

namespace KubemqWorkshop

/-- The flags of a `Subscriber`. -/
structure Flags where
  /-- notifications are not passed on any more -/
  isStopped : Bool
  /-- it has been unsubscribed -/
  closed : Bool
  deriving DecidableEq, Repr

/-- A callback that was passed to `subscribe`. -/
structure Subscriber where
  /-- the `Subscriber`, which the source notifies -/
  outer : Flags
  /-- its `destination`, the `SafeSubscriber` -/
  safe : Flags
  /-- how often the teardown of the source was called, or would have been if it has none -/
  teardowns : ℕ
  /-- how many errors were thrown at the host -/
  hostErrors : ℕ
  deriving DecidableEq, Repr

namespace Subscriber

/-- A subscriber as `subscribe` makes it. -/
def new : Subscriber := ⟨⟨false, false⟩, ⟨false, false⟩, 0, 0⟩

/-- `hostReportError`: the error is thrown when nobody can catch it any more. -/
def hostReportError (s : Subscriber) : Subscriber := { s with hostErrors := s.hostErrors + 1 }

/-- `Subscriber.unsubscribe`; the teardown was added to this one of the pair. -/
def unsubscribe (s : Subscriber) : Subscriber :=
  if s.outer.closed then s
  else { s with outer := ⟨true, true⟩, teardowns := s.teardowns + 1 }

/-- `SafeSubscriber.unsubscribe`, whose `_unsubscribe` unsubscribes the parent. -/
def safeUnsubscribe (s : Subscriber) : Subscriber :=
  if s.safe.closed then s else { s with safe := ⟨true, true⟩ }.unsubscribe

/-- `SafeSubscriber.error`, when no handler for errors was passed. -/
def safeError (s : Subscriber) : Subscriber :=
  if s.safe.isStopped then s else s.hostReportError.safeUnsubscribe

/-- `Subscriber.error`. -/
def error (s : Subscriber) : Subscriber :=
  if s.outer.isStopped then s
  else { s with outer := { s.outer with isStopped := true } }.safeError.unsubscribe

/-- `SafeSubscriber.complete`, when no handler for the completion was passed. -/
def safeComplete (s : Subscriber) : Subscriber :=
  if s.safe.isStopped then s else s.safeUnsubscribe

/-- `Subscriber.complete`. -/
def complete (s : Subscriber) : Subscriber :=
  if s.outer.isStopped then s
  else { s with outer := { s.outer with isStopped := true } }.safeComplete.unsubscribe

section

universe u v

variable {σ : Type u} {α : Type v} (callback : σ → α → Bool × σ)

/-- `SafeSubscriber.next` with its `__tryOrUnsub`. The callback works on a state
of type `σ` and answers `false` when it throws. -/
def safeNext (s : Subscriber) (x : σ) (a : α) : Subscriber × σ :=
  if s.safe.isStopped then (s, x)
  else
    let result := callback x a
    (if result.1 then s else s.safeUnsubscribe.hostReportError, result.2)

/-- `Subscriber.next`. -/
def next (s : Subscriber) (x : σ) (a : α) : Subscriber × σ :=
  if s.outer.isStopped then (s, x) else s.safeNext callback x a

end

/-! ## The two states of a pair -/

/-- A subscriber that has come to its end. -/
def ended (hostErrors : ℕ) : Subscriber := ⟨⟨true, true⟩, ⟨true, true⟩, 1, hostErrors⟩

section

universe u v

variable {σ : Type u} {α : Type v} (callback : σ → α → Bool × σ)

@[simp] theorem next_new (x : σ) (a : α) :
    new.next callback x a =
      (if (callback x a).1 then new else ended 1, (callback x a).2) := rfl

@[simp] theorem next_ended (n : ℕ) (x : σ) (a : α) :
    (ended n).next callback x a = (ended n, x) := rfl

end

@[simp] theorem error_new : new.error = ended 1 := rfl

@[simp] theorem error_ended (n : ℕ) : (ended n).error = ended n := rfl

@[simp] theorem complete_new : new.complete = ended 0 := rfl

@[simp] theorem complete_ended (n : ℕ) : (ended n).complete = ended n := rfl

end Subscriber

end KubemqWorkshop
