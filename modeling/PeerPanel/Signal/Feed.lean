/-!
A feed is a sequence of notices with many readers.

Every reader has its own place in the sequence and meets the notices sent since it began, in their
order. Only the latest notices are held for a slow reader: one that is too far behind learns how
many it has missed, once, and goes on with the oldest that is held. The feed keeps all that was
sent, and how much of it a reader still meets follows from its place alone. A reader that works in
the background stops now and then, so that others come to their turn.
-/

set_option autoImplicit false
set_option relaxedAutoImplicit false

namespace PeerPanel

/-- What a reader meets next: a notice, or the number of those that it has missed. -/
inductive Received (α : Type)
  | notice (a : α)
  | missed (count : Nat)
  deriving DecidableEq

/-- All notices sent so far, the oldest first, of which the latest `capacity` are held. -/
structure Feed (α : Type) where
  capacity : Nat
  sent : List α := []
  deriving DecidableEq

namespace Feed

variable {α β : Type}

def send (f : Feed α) (a : α) : Feed α := { f with sent := f.sent ++ [a] }

def place (f : Feed α) : Nat := f.sent.length

def oldest (f : Feed α) : Nat := f.sent.length - f.capacity

/-- What a reader at a place has yet to meet. -/
def unread (f : Feed α) (place : Nat) : List (Received α) :=
  if place < f.oldest then
    .missed (f.oldest - place) :: (f.sent.drop f.oldest).map .notice
  else (f.sent.drop place).map .notice

def hasNews (f : Feed α) (place : Nat) : Bool := place < f.sent.length

/-- An upper bound for what a reader can still yield, which yields once before it reads. -/
def ahead (f : Feed α) (started : Bool) (place : Nat) : Nat :=
  f.place - place + (!started).toNat

/-- The first accepted notice of a list that starts at a place, and the place behind it. -/
def seek (accept : Received α → Option β) : List α → Nat → Option β × Nat
  | [], place => (none, place)
  | a :: rest, place =>
    match accept (.notice a) with
    | some b => (some b, place + 1)
    | none => seek accept rest (place + 1)

/-- Let a reader go on to the next thing that it accepts, passing over the others. -/
def next? (f : Feed α) (accept : Received α → Option β) (place : Nat) : Option β × Nat :=
  if place < f.oldest then
    match accept (.missed (f.oldest - place)) with
    | some b => (some b, f.oldest)
    | none => seek accept (f.sent.drop f.oldest) f.oldest
  else seek accept (f.sent.drop place) place

/-- The most that a reader meets at one go. -/
def stride : Nat := 128

/-- The place that a reader gets to at one go. What it is told of the notices that it has missed
counts as one. -/
def stop (f : Feed α) (place : Nat) : Nat :=
  if place < f.oldest then f.oldest + (stride - 1) else place + stride

/-- The feed as it was when the notices before a place were sent, as far as they are still held. -/
def upTo (f : Feed α) (place : Nat) : Feed α :=
  { capacity := place - f.oldest, sent := f.sent.take place }

/-- The feed as far as a reader gets at one go, if that does not take it past the end. -/
def pause? (f : Feed α) (place : Nat) : Option (Feed α) :=
  if f.stop place ≤ f.place then some (f.upTo (f.stop place)) else none

@[simp] theorem sent_send (f : Feed α) (a : α) : (f.send a).sent = f.sent ++ [a] := rfl

@[simp] theorem place_send (f : Feed α) (a : α) : (f.send a).place = f.place + 1 := by
  simp [place, send]

/-- A reader that stops on the way misses what it would have missed, and no more. -/
theorem oldest_upTo {f : Feed α} {place : Nat} (old : f.oldest ≤ place) (sent : place ≤ f.place) :
    (f.upTo place).oldest = f.oldest := by
  simp only [upTo, oldest, Feed.place, List.length_take] at *
  omega

theorem oldest_le_stop (f : Feed α) (place : Nat) : f.oldest ≤ f.stop place := by
  unfold stop
  split <;> omega

end Feed

end PeerPanel
