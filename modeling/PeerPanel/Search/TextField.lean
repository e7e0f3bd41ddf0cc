import PeerPanel.Signal.Watched

/-!
The text field of a search.

An edit that changes the text is published to the observers and told to the listener, in this
order and once; an edit that leaves the text as it is does nothing. A listener is told the present
text when it is set. What it is told is part of the result of an operation: a call is the
listener together with the text.
-/

set_option autoImplicit false
set_option relaxedAutoImplicit false

namespace PeerPanel.Search

/-- A text with observers and at most one listener. -/
structure TextField (ℓ : Type) where
  text : Watched String
  listener : Option ℓ := none
  deriving DecidableEq

/-- A listener and the text that it is told. -/
abbrev Call (ℓ : Type) := ℓ × String

namespace TextField

variable {ℓ : Type}

def ofText (text : String) : TextField ℓ := { text := { value := text } }

def value (f : TextField ℓ) : String := f.text.value

/-- Replace the text, and tell the listener if it has changed. -/
def edit (f : TextField ℓ) (text : String) : TextField ℓ × Option (Call ℓ) :=
  if f.value = text then (f, none)
  else ({ f with text := f.text.send text }, f.listener.map fun l => (l, text))

def listen (f : TextField ℓ) (l : ℓ) : TextField ℓ × Call ℓ :=
  ({ f with listener := some l }, (l, f.value))

@[simp] theorem value_edit (f : TextField ℓ) (text : String) : (f.edit text).1.value = text := by
  unfold edit
  split
  · assumption
  · rfl

end TextField

end PeerPanel.Search
