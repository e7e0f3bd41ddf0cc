import PeerPanel.Lifetime
import PeerPanel.MediaWindow
import PeerPanel.Search.Query

/-!
Windows that follow the account.

A live view yields a window when it is first asked, and one more for every notice that concerns it
since it was opened. Each window is cut out of the account as it is at the moment of asking, so a
reader that has asked for all that there is has seen the present state. A view that is too slow
yields one window in the place of all notices that it has missed.
-/

set_option autoImplicit false
set_option relaxedAutoImplicit false

namespace PeerPanel

/-- What a live view shows. -/
inductive ViewSource
  /-- The merged history. -/
  | history
  /-- The scheduled messages of the peer. -/
  | scheduled
  /-- What a text finds; the hits known when the view was opened serve for its first window. -/
  | search (text : String) (known : Option (List TimelineId))
  deriving DecidableEq

/-- A view and the place that it has read the notices to. -/
structure LiveView where
  source : ViewSource
  key : WindowKey
  before : Nat
  after : Nat
  place : Nat
  started : Bool := false
  deriving DecidableEq

namespace LiveView

def query (v : LiveView) (text : String) : Search.Query :=
  { kind := v.key.kind, peer := v.key.peer, migrated := v.key.migrated, text }

def concerns (v : LiveView) (n : MediaNotice) : Bool :=
  match v.source with
  | .scheduled => n.scheduled && n.peer = v.key.peer
  | _ => !n.scheduled && (n.peer = v.key.peer || some n.peer = v.key.migrated)

def positions (v : LiveView) (a : Account) : Except Fault (List TimelineId) :=
  match v.source with
  | .history => a.mergedMedia v.key.peer v.key.migrated v.key.kind
  | .scheduled => .ok (a.scheduledMedia v.key.peer v.key.kind)
  | .search _ (some known) => .ok known
  | .search text none => (Search.run a (v.query text)).merged

def origin (v : LiveView) : WindowOrigin :=
  match v.source with
  | .history => .merged
  | .scheduled => .scheduled
  | .search _ _ => .search

/-- The window over the account as it is. -/
def window (v : LiveView) (a : Account) : Except Fault MediaWindow := do
  let all ← v.positions a
  pure (.cut v.key v.origin all v.before v.after)

/-- The view after its first window, which has used the known hits. -/
def begun (v : LiveView) : LiveView :=
  { v with
    started := true
    source := match v.source with
      | .search text _ => .search text none
      | s => s }

/-- What a view accepts among the notices: those that concern it, and that some were missed. -/
def accepts (v : LiveView) : Received MediaNotice → Option Unit
  | .notice n => if v.concerns n then some () else none
  | .missed _ => some ()

def poll (v : LiveView) (a : Account) : Except Fault (Option MediaWindow × LiveView) :=
  if v.started then
    match a.mediaNotices.next? v.accepts v.place with
    | (some _, place) => do
      let w ← v.window a
      pure (some w, { v with place })
    | (none, place) => .ok (none, { v with place })
  else do
    let w ← v.window a
    pure (some w, v.begun)

def hasNews (v : LiveView) (a : Account) : Bool :=
  !v.started || a.mediaNotices.hasNews v.place

end LiveView

namespace Account

def historyView (a : Account) (key : WindowKey) (before after : Nat) : LiveView :=
  { source := .history, key, before, after, place := a.mediaNotices.place }

def scheduledView (a : Account) (key : WindowKey) (before after : Nat) : LiveView :=
  { source := .scheduled, key, before, after, place := a.mediaNotices.place }

/-- Open a view of what a query finds, with its hits if they are known. -/
def searchView (a : Account) (q : Search.Query) (known : Option Search.Hits)
    (around : TimelineId) (before after : Nat) : Except Fault LiveView := do
  let first ← known.mapM Search.Hits.merged
  pure
    { source := .search q.text first
      key := { peer := q.peer, migrated := q.migrated, around, kind := q.kind }
      before, after
      place := a.mediaNotices.place }

end Account

/-- A subscription to the changes of some properties of a peer. -/
structure PeerView where
  peer : PeerId
  aspects : PeerAspects
  place : Nat
  started : Bool := false
  deriving DecidableEq

namespace PeerView

def present (v : PeerView) : PeerNotice := { peer := v.peer, aspects := v.aspects }

/-- What a subscription yields for a notice that it meets; missed ones count as a change. -/
def accepts (v : PeerView) : Received PeerNotice → Option PeerNotice
  | .notice n => if n.peer = v.peer ∧ n.aspects.meets v.aspects then some n else none
  | .missed _ => some v.present

/-- Ask for the next notice. The first one stands for the present state. -/
def poll (v : PeerView) (a : Account) : Option PeerNotice × PeerView :=
  if v.started then
    let (n, place) := a.peerNotices.next? v.accepts v.place
    (n, { v with place })
  else (some v.present, { v with started := true })

/-- Ask for a subscription that does not end. -/
def ask (a : Account) (v : PeerView) : Reply PeerNotice PeerView :=
  match v.poll a with
  | (some n, v) => .value n v
  | (none, v) => .pending v

/-- An upper bound for what a subscription can still yield of the notices sent so far. -/
def ahead (a : Account) (v : PeerView) : Nat := a.peerNotices.ahead v.started v.place

/-- As often as a reader can be asked before it has met all: the present state, the news that some
were missed, and every notice behind its place. -/
def readyBound (v : PeerView) (a : Account) : Nat := a.peerNotices.place - v.place + 2

/-- The account as far as a subscription gets at one go, if it stops before it has read all. -/
def pause? (v : PeerView) (a : Account) : Option Account :=
  (a.peerNotices.pause? v.place).map fun peerNotices => { a with peerNotices }

def hasNews (v : PeerView) (a : Account) : Bool := !v.started || a.peerNotices.hasNews v.place

end PeerView

/-- Subscribe to the changes of some properties of a peer. -/
def Account.peerView (a : Account) (peer : PeerId) (aspects : PeerAspects) : PeerView :=
  { peer, aspects, place := a.peerNotices.place }

end PeerPanel
