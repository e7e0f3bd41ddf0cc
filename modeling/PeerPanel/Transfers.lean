import PeerPanel.Ids
import PeerPanel.Signal.Feed

/-!
The transfers that are under way.

A message may be downloaded more than once at a time. Progress is noted at the first transfer of a
message, and finishing ends all of them. Every change of the list is published, and nothing else.
-/

set_option autoImplicit false
set_option relaxedAutoImplicit false

namespace PeerPanel

/-- A transfer, when it was started, and how much of it is done. -/
structure Transfer where
  item : FullId
  started : Int
  ready : Nat := 0
  total : Nat
  deriving DecidableEq

/-- What a view shows of a transfer. -/
structure TransferEntry where
  item : FullId
  started : Int
  deriving DecidableEq

def Transfer.entry (x : Transfer) : TransferEntry := { item := x.item, started := x.started }

/-- The transfers in the order in which they were started, with the notices of changes. -/
structure Transfers where
  list : List Transfer := []
  changes : Feed Unit := { capacity := 64 }
  deriving DecidableEq

namespace Transfers

/-- Put another list in place and publish the change. -/
def publish (t : Transfers) (list : List Transfer) : Transfers :=
  { list, changes := t.changes.send () }

def start (t : Transfers) (item : FullId) (started : Int) (total : Nat) : Transfers :=
  let new : Transfer := { item, started, total }
  t.publish (t.list ++ [new])

/-- Note at the first transfer of an item how much is ready, and no more than its total. -/
def note (item : FullId) (ready : Nat) : List Transfer → List Transfer
  | [] => []
  | x :: rest =>
    if x.item = item then { x with ready := min ready x.total } :: rest
    else x :: note item ready rest

def tracks (t : Transfers) (item : FullId) : Bool := t.list.any (·.item = item)

def progress (t : Transfers) (item : FullId) (ready : Nat) : Bool × Transfers :=
  if t.tracks item then (true, t.publish (note item ready t.list)) else (false, t)

def finish (t : Transfers) (item : FullId) : Bool × Transfers :=
  if t.tracks item then (true, t.publish (t.list.filter (·.item ≠ item))) else (false, t)

/-- What is shown of the transfers, by the time of their start; those of one time keep their
order. -/
def entries (t : Transfers) : List TransferEntry :=
  (t.list.map Transfer.entry).mergeSort fun x y => x.started ≤ y.started

end Transfers

/-- A view of the sorted list: one list when first asked, one for every change since it was
opened. Each is the list as it is at the moment of asking. -/
structure TransfersView where
  place : Nat
  started : Bool := false
  deriving DecidableEq

namespace TransfersView

def poll (v : TransfersView) (t : Transfers) : Option (List TransferEntry) × TransfersView :=
  if v.started then
    let (n, place) := t.changes.next? (fun _ => some ()) v.place
    (n.map fun _ => t.entries, { v with place })
  else (some t.entries, { v with started := true })

def hasNews (v : TransfersView) (t : Transfers) : Bool := !v.started || t.changes.hasNews v.place

end TransfersView

def Transfers.view (t : Transfers) : TransfersView := { place := t.changes.place }

end PeerPanel
