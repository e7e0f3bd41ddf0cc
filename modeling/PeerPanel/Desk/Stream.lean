import PeerPanel.Account.LiveView
import PeerPanel.Lifetime
import PeerPanel.Navigation
import PeerPanel.Transfers

/-!
Everything that can be followed, under one type.

A stream is asked again and again, and answers with a value, with nothing for now, or with its end.
What it answers depends on the publishers at the moment of asking. A tap on a watched value keeps
the last state of the value when its owner is gone.
-/

set_option autoImplicit false
set_option relaxedAutoImplicit false

namespace PeerPanel.Desk

/-- The owner of a watched value, by the number of the step that has made it. -/
inductive Owner
  | field (made : Nat)
  | search (made : Nat)
  | panel (made : Nat)
  | widget (made : Nat)
  deriving DecidableEq

/-- A value that a stream yields. -/
inductive Value
  | window (w : MediaWindow)
  | transfers (list : List TransferEntry)
  | changed
  | peer (n : PeerNotice)
  | media (n : MediaNotice)
  | missed (count : Nat)
  | text (s : String)
  | flag (b : Bool)
  | wrap (w : Wrap)
  | done
  deriving DecidableEq

/-- An observer of a value, with the last state of the value once its owner is gone. -/
structure Tap (α : Type) where
  owner : Owner
  observer : Observer := {}
  left : Option (Watched α) := none
  deriving DecidableEq

/-- Something that can be followed. -/
inductive Stream
  | view (v : LiveView)
  | transfers (v : TransfersView)
  | transferChanges (place : Nat)
  | peer (v : PeerView)
  | mediaNotices (place : Nat)
  | text (t : Tap String)
  | flag (t : Tap Bool)
  | wrap (t : Tap Wrap)
  /-- A value that is yielded once, before the end. -/
  | single (v : Value)
  /-- The end of a wait, which is over at a time. -/
  | wait (due : Nat)
  | ended
  deriving DecidableEq

/-- What streams read from. -/
structure Publishers where
  account : Account
  transfers : Transfers
  time : Nat
  text? : Owner → Option (Watched String)
  flag? : Owner → Option (Watched Bool)
  wrap? : Owner → Option (Watched Wrap)

def Publishers.withMediaNotices (p : Publishers) (mediaNotices : Feed MediaNotice) : Publishers :=
  { p with account := { p.account with mediaNotices } }

def Publishers.withTransferChanges (p : Publishers) (changes : Feed Unit) : Publishers :=
  { p with transfers := { p.transfers with changes } }

/-- The answer of a stream. -/
inductive Answer
  | value (v : Value)
  | pending
  | ended
  deriving DecidableEq

def Answer.ofOption : Option Value → Answer
  | some v => .value v
  | none => .pending

namespace Tap

variable {α : Type}

/-- Ask a tap, given the present state of the value if its owner is there. -/
def poll (t : Tap α) (present : Option (Watched α)) (value : α → Value) : Answer × Tap α :=
  match t.left, present with
  | some w, _ =>
    match t.observer.poll w with
    | (some a, observer) => (.value (value a), { t with observer })
    | (none, _) => (.ended, t)
  | none, some w =>
    let (a, observer) := t.observer.poll w
    (.ofOption (a.map value), { t with observer })
  | none, none => (.ended, t)

def hasNews (t : Tap α) (present : Option (Watched α)) : Bool :=
  match t.left, present with
  | none, some w => t.observer.hasNews w
  | _, _ => true

/-- The owner is gone, and leaves the last state of the value. -/
def leave (t : Tap α) (owner : Owner) (w : Watched α) : Tap α :=
  if t.owner = owner then { t with left := some w } else t

end Tap

namespace Stream

def poll (p : Publishers) : Stream → Except Fault (Answer × Stream)
  | view v => do
    let (w, v) ← v.poll p.account
    pure (.ofOption (w.map .window), view v)
  | transfers v =>
    let (l, v) := v.poll p.transfers
    .ok (.ofOption (l.map .transfers), transfers v)
  | transferChanges place =>
    let (n, place) := p.transfers.changes.next? (fun _ => some Value.changed) place
    .ok (.ofOption n, transferChanges place)
  | peer v =>
    let (n, v) := v.poll p.account
    .ok (.ofOption (n.map .peer), peer v)
  | mediaNotices place =>
    let value : Received MediaNotice → Option Value
      | .notice n => some (.media n)
      | .missed count => some (.missed count)
    let (n, place) := p.account.mediaNotices.next? value place
    .ok (.ofOption n, mediaNotices place)
  | text t =>
    let (a, t) := t.poll (p.text? t.owner) .text
    .ok (a, text t)
  | flag t =>
    let (a, t) := t.poll (p.flag? t.owner) .flag
    .ok (a, flag t)
  | wrap t =>
    let (a, t) := t.poll (p.wrap? t.owner) .wrap
    .ok (a, wrap t)
  | single v => .ok (.value v, ended)
  | wait due => .ok (if due ≤ p.time then (.value .done, ended) else (.pending, wait due))
  | ended => .ok (.ended, ended)

def hasNews (p : Publishers) : Stream → Bool
  | view v => v.hasNews p.account
  | transfers v => v.hasNews p.transfers
  | transferChanges place => p.transfers.changes.hasNews place
  | peer v => v.hasNews p.account
  | mediaNotices place => p.account.mediaNotices.hasNews place
  | text t => t.hasNews (p.text? t.owner)
  | flag t => t.hasNews (p.flag? t.owner)
  | wrap t => t.hasNews (p.wrap? t.owner)
  | single _ => true
  | wait due => due ≤ p.time
  | ended => true

/-- The rank of those that hear last of what happens in one step. -/
def lastRank : Nat := 3

/-- The order in which followers hear of what happens in one step: a text that is typed goes before
the search that it leads to, and that before all else. -/
def rank : Stream → Nat
  | text t =>
    match t.owner with
    | .field _ => 0
    | _ => 2
  | _ => lastRank

/-- Ask a stream for up to a number of values. Yields them, whether the end was met, and the rest of
the stream. -/
def read (p : Publishers) : Nat → Stream → Except Fault (List Value × Bool × Stream)
  | 0, s => .ok ([], false, s)
  | n + 1, s => do
    match ← s.poll p with
    | (.value v, s) =>
      let (vs, isOver, s) ← read p n s
      pure (v :: vs, isOver, s)
    | (.pending, s) => pure ([], false, s)
    | (.ended, s) => pure ([], true, s)

/-- More than the number of values that a stream can have ready: one for every notice that was ever
sent, and a few that go before them. -/
def readyBound (p : Publishers) : Nat :=
  p.account.mediaNotices.place + p.account.peerNotices.place + p.transfers.changes.place + 3

/-- An upper bound for what a stream can still yield of the notices sent so far. Only a stream that
reads notices has to stop before it has read all. -/
def unread (a : Account) (t : Transfers) : Stream → Nat
  | view v => a.mediaNotices.ahead v.started v.place
  | mediaNotices place => a.mediaNotices.ahead true place
  | peer v => v.ahead a
  | transfers v => t.changes.ahead v.started v.place
  | transferChanges place => t.changes.ahead true place
  | _ => 0

/-- The publishers as far as a stream gets at one go, if it has to stop before it has read all. -/
def pause? (p : Publishers) : Stream → Option Publishers
  | view v => (p.account.mediaNotices.pause? v.place).map p.withMediaNotices
  | mediaNotices place => (p.account.mediaNotices.pause? place).map p.withMediaNotices
  | peer v => (v.pause? p.account).map fun account => { p with account }
  | transfers v => (p.transfers.changes.pause? v.place).map p.withTransferChanges
  | transferChanges place => (p.transfers.changes.pause? place).map p.withTransferChanges
  | _ => none

/-- Ask a stream for a subscription. A fault ends the stream. -/
def ask (p : Publishers) (s : Stream) : Reply Value Stream :=
  match s.poll p with
  | .ok (.value v, rest) => .value v rest
  | .ok (.pending, rest) => .pending rest
  | .ok (.ended, _) => .ended
  | .error _ => .ended

def leaveText (owner : Owner) (w : Watched String) : Stream → Stream
  | text t => text (t.leave owner w)
  | s => s

def leaveFlag (owner : Owner) (w : Watched Bool) : Stream → Stream
  | flag t => flag (t.leave owner w)
  | s => s

def leaveWrap (owner : Owner) (w : Watched Wrap) : Stream → Stream
  | wrap t => wrap (t.leave owner w)
  | s => s

def due? : Stream → Option Nat
  | wait due => some due
  | _ => none

end Stream

/-- Equal neighbours of a list, counted. -/
def runLengths {α : Type} [DecidableEq α] : List α → List (Nat × α)
  | [] => []
  | a :: rest =>
    match runLengths rest with
    | (n, b) :: more => if a = b then (n + 1, b) :: more else (1, a) :: (n, b) :: more
    | [] => [(1, a)]

end PeerPanel.Desk
