import PeerPanel.Panel.Basic

/-!
The place of a panel in a window. The window keeps what it was told, also when the panel has gone.
-/

set_option autoImplicit false
set_option relaxedAutoImplicit false

namespace PeerPanel

/-- A panel in a widget, by the steps in which it was opened and its search was last built. The
widget is named by the step that has made it. -/
structure Mounted where
  panel : Panel
  widget : Option Nat
  opened : Nat
  built : Nat
  deriving DecidableEq

namespace Mounted

/-- The watch of the panel, as long as it runs. -/
def watch (m : Mounted) : Option PeerView := m.panel.lifetime.source? m.opened

/-- Change the panel if it was opened in a step. -/
def mapOpened (m : Mounted) (opened : Nat) (f : Panel → Panel) : Mounted :=
  if m.opened = opened then { m with panel := f m.panel } else m

def leave (m : Mounted) : Mounted := { m with panel := m.panel.leave }

end Mounted

/-- What stands at a place of a window. -/
inductive Occupant
  | vacant
  | pane (p : Pane)
  | panel (m : Mounted)
  deriving DecidableEq

/-- A place, and the calls that the window was told. -/
structure Seat where
  occupant : Occupant := .vacant
  told : List NavCall := []
  deriving DecidableEq

namespace Seat

def mounted? (s : Seat) : Option Mounted :=
  match s.occupant with
  | .panel m => some m
  | _ => none

def pane? (s : Seat) : Option Pane :=
  match s.occupant with
  | .vacant => none
  | .pane p => some p
  | .panel m => some m.panel.toPane

/-- Change the search of the panel that was built in a step. -/
def mapSearch (s : Seat) (built : Nat) (f : Search.Debounce → Search.Debounce) : Seat :=
  match s.occupant with
  | .panel m =>
    if m.built = built then
      let panel := { m.panel with search := m.panel.search.map f }
      { s with occupant := .panel { m with panel } }
    else s
  | _ => s

def mapOpened (s : Seat) (opened : Nat) (f : Panel → Panel) : Seat :=
  match s.occupant with
  | .panel m => { s with occupant := .panel (m.mapOpened opened f) }
  | _ => s

end Seat

end PeerPanel
