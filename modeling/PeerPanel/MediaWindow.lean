import PeerPanel.Message
import PeerPanel.PartitionPoint

/-!
A window of positions, cut out of an ascending timeline around an anchor.

The anchor stands at the first position that is not below it. The window holds as many positions
before that place as asked for, the place itself, and as many after it, and it counts what it
leaves out on both sides.
-/

set_option autoImplicit false
set_option relaxedAutoImplicit false

namespace PeerPanel

/-- The timeline that a window is cut from, and the anchor of the cut. -/
structure WindowKey where
  peer : PeerId
  migrated : Option PeerId
  around : TimelineId
  kind : MediaKind
  deriving DecidableEq

/-- Where the positions of a window come from. -/
inductive WindowOrigin
  | merged | scheduled | search
  deriving DecidableEq

/-- A contiguous part of a timeline. -/
structure MediaWindow where
  key : WindowKey
  origin : WindowOrigin
  ids : List TimelineId
  fullCount : Nat
  skippedBefore : Nat
  skippedAfter : Nat
  deriving DecidableEq

namespace MediaWindow

/-- How many positions at the front of an ascending list are below a given one. -/
def countBelow (all : List TimelineId) (anchor : TimelineId) : Nat :=
  partitionPoint (· < anchor) all

/-- Cut the window around the anchor of a key out of an ascending list. -/
def cut (key : WindowKey) (origin : WindowOrigin) (all : List TimelineId) (before after : Nat) :
    MediaWindow :=
  let place := countBelow all key.around
  let first := place - before
  let stop := max (min (place + after + 1) all.length) first
  { key, origin
    ids := (all.take stop).drop first
    fullCount := all.length
    skippedBefore := first
    skippedAfter := all.length - stop }

def size (w : MediaWindow) : Nat := w.ids.length

/-- The position at an index of the window. -/
def get? (w : MediaWindow) (i : Nat) : Option TimelineId := w.ids[i]?

/-- The index of a position in the window, the last one where it is repeated. -/
def indexOf? (w : MediaWindow) (t : TimelineId) : Option Nat :=
  let i := halvingEnd (· ≤ t) w.ids
  if w.ids[i]? = some t then some i else none

/-- The position of the window that is nearest to a given one, the later of two as near. The
distances are 64-bit numbers, and one that is too large is a fault. -/
def nearest? (w : MediaWindow) (t : TimelineId) : Except Fault (Option TimelineId) :=
  let place := countBelow w.ids t
  match (w.ids.take place).getLast?, w.ids[place]? with
  | some b, some a => do
    let back ← subtract t.number b.number
    let ahead ← subtract a.number t.number
    pure (some (if back < ahead then b else a))
  | before, after => .ok (after <|> before)

end MediaWindow

end PeerPanel
