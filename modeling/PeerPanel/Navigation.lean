import PeerPanel.Entry
import PeerPanel.Signal.Watched

/-!
Where a panel sends its requests: first to the widget that it stands in, if that is still there,
and then to the window.
-/

set_option autoImplicit false
set_option relaxedAutoImplicit false

namespace PeerPanel

/-- The direction of a transition. -/
inductive Way
  | forward | backward | clearStack
  deriving DecidableEq

/-- How a transition is shown. -/
inductive Motion
  | normal | instant
  deriving DecidableEq

/-- Whether a transition was asked for by the user or happens in the background. -/
inductive Activation
  | foreground | background
  deriving DecidableEq

/-- The parameters of a transition. -/
structure Transition where
  way : Way := .forward
  motion : Motion := .normal
  activation : Activation := .foreground
  deriving DecidableEq

/-- The way in which a panel is presented. -/
inductive Wrap
  | layer | narrow | side | search
  deriving DecidableEq

/-- A call to a navigator. -/
inductive NavCall
  | display (request : Request) (params : Transition)
  | back (params : Transition)
  | history (peer : PeerId) (msg : Option MsgId) (params : Transition)
  deriving DecidableEq

/-- A widget that a panel stands in. It takes over the calls that it is offered, or refuses. -/
structure Widget where
  accepts : Bool
  wrap : Watched Wrap
  deriving DecidableEq

/-- Whether a call is offered to the widget before it goes to the window. -/
def NavCall.isOffered : NavCall → Bool
  | history .. => false
  | _ => true

/-- Where a call arrives. -/
structure Delivery where
  /-- What the widget was offered, and whether it took it. -/
  offered : Option (NavCall × Bool)
  /-- What the window was told. -/
  told : Option NavCall
  deriving DecidableEq

/-- Send a call by way of the widget, if there is one. -/
def deliver (widget : Option Widget) (call : NavCall) : Delivery :=
  match widget with
  | some w =>
    if call.isOffered then
      { offered := some (call, w.accepts), told := if w.accepts then none else some call }
    else { offered := none, told := some call }
  | none => { offered := none, told := some call }

end PeerPanel
