/-!
A lifetime owns the subscriptions that were started on it.

A subscription follows a source and tells a callback every value that the source yields, in order.
It runs by itself until its source ends or it is called off. The lifetime holds on to what it has
started and calls it off when it ends; what has ended by itself is let go of when another one is
started.

What is held and what runs are kept apart: a subscription that runs and is not held would tell its
callback values after the lifetime has ended. That there is none is a theorem, and not part of the
type.
-/

set_option autoImplicit false
set_option relaxedAutoImplicit false

namespace PeerPanel

/-- What a source answers when it is asked for its next value. -/
inductive Reply (α σ : Type)
  | value (a : α) (rest : σ)
  | pending (rest : σ)
  | ended

/-- What the members of a list weigh together. -/
def total {α : Type} (weigh : α → Nat) : List α → Nat
  | [] => 0
  | a :: rest => weigh a + total weigh rest

section

variable {α σ : Type}

/-- Take the values that a source has ready, up to a number of them. Hands back what is left of the
source, unless it has ended. -/
def takeReady (ask : σ → Reply α σ) : Nat → σ → List α × Option σ
  | 0, source => ([], some source)
  | n + 1, source =>
    match ask source with
    | .value a rest =>
      let (values, left) := takeReady ask n rest
      (a :: values, left)
    | .pending rest => ([], some rest)
    | .ended => ([], none)

end

/-- A subscription that runs: its callback, by a tag, the step that has begun it, and its source. -/
structure Subscription (σ : Type) where
  tag : String
  begun : Nat
  source : σ
  deriving DecidableEq

/-- The subscriptions of one owner, in the order in which they were started. -/
structure Lifetime (σ : Type) where
  /-- Those that can be called off, by the steps that have begun them. -/
  held : List Nat := []
  /-- Those that have neither ended nor been called off. -/
  running : List (Subscription σ) := []
  deriving DecidableEq

namespace Subscription

variable {σ α : Type}

/-- Run a subscription: its callback is told what the source has ready, up to a number of values. -/
def run (r : Subscription σ) (ask : σ → Reply α σ) (most : Nat) :
    List (String × α) × Option (Subscription σ) :=
  let (values, left) := takeReady ask most r.source
  (values.map fun v => (r.tag, v), left.map fun source => { r with source })

end Subscription

namespace Lifetime

variable {σ α : Type}

/-- Whether the subscription that was begun in a step runs. -/
def runs (l : Lifetime σ) (begun : Nat) : Bool := l.running.any (·.begun = begun)

def start (l : Lifetime σ) (tag : String) (source : σ) (begun : Nat) : Lifetime σ :=
  { held := l.held.filter l.runs ++ [begun]
    running := l.running ++ [{ tag, begun, source }] }

def active (l : Lifetime σ) : Nat := l.held.countP l.runs

/-- Call off all that is held. -/
def destroy (l : Lifetime σ) : Lifetime σ :=
  { held := [], running := l.running.filter fun r => !l.held.contains r.begun }

/-- The source of the subscription that was begun in a step, if it still runs. -/
def source? (l : Lifetime σ) (begun : Nat) : Option σ :=
  (l.running.find? (·.begun = begun)).map (·.source)

/-- What the sources that run weigh together. -/
def weight (weigh : σ → Nat) (l : Lifetime σ) : Nat := total (weigh ·.source) l.running

def mapSources (l : Lifetime σ) (f : σ → σ) : Lifetime σ :=
  { l with running := l.running.map fun r => { r with source := f r.source } }

/-- Let the subscription that was begun in a step have its turn. -/
def run (l : Lifetime σ) (begun : Nat) (ask : σ → Reply α σ) (most : Nat) :
    List (String × α) × Lifetime σ :=
  let turns := l.running.map fun r => if r.begun = begun then r.run ask most else ([], some r)
  (turns.flatMap (·.1), { l with running := turns.filterMap (·.2) })

end Lifetime

end PeerPanel
