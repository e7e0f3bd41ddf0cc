/-!
A watched value is a value whose observers see its latest state.

An observer meets the value as it is when first asked, and after that the latest value whenever
one was sent since, however many were sent in between. Sending an equal value counts. When the
owner of the value is gone, an observer meets the last value if it has not seen it, and then the
end.
-/

set_option autoImplicit false
set_option relaxedAutoImplicit false

namespace PeerPanel

/-- A value and the number of times that one was sent. -/
structure Watched (α : Type) where
  value : α
  sends : Nat := 0
  deriving DecidableEq

namespace Watched

variable {α : Type}

def send (w : Watched α) (a : α) : Watched α := { value := a, sends := w.sends + 1 }

/-- Send a value that differs from the present one; an equal value is not sent. -/
def update [DecidableEq α] (w : Watched α) (a : α) : Watched α :=
  if w.value = a then w else w.send a

@[simp] theorem value_send (w : Watched α) (a : α) : (w.send a).value = a := rfl

@[simp] theorem value_update [DecidableEq α] (w : Watched α) (a : α) : (w.update a).value = a := by
  unfold update
  split
  · assumption
  · rfl

end Watched

/-- How far an observer has seen: the number of sends that it knows of, or nothing yet. -/
structure Observer where
  seen : Option Nat := none
  deriving DecidableEq

namespace Observer

variable {α : Type}

/-- Whether there is something that the observer has not seen. -/
def hasNews (o : Observer) (w : Watched α) : Bool := o.seen ≠ some w.sends

def poll (o : Observer) (w : Watched α) : Option α × Observer :=
  if o.hasNews w then (some w.value, ⟨some w.sends⟩) else (none, o)

end Observer

end PeerPanel
