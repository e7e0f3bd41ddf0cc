import PeerPanel.Agenda
import PeerPanel.Desk.Stream
import PeerPanel.Panel.Seat

/-!
A desk: one account, its transfers and its configuration, and the panels, searches, streams and
lifetimes that a host works with, each under a name of its own.

The host acts in steps, which are numbered. What it makes in a step is known by the number of the
step, so that a name can be given to something else while what it named lives on for those who hold
it. Time stands still during a step, and no background work is done; for both see
`PeerPanel.Desk.Clock`.
-/

set_option autoImplicit false
set_option relaxedAutoImplicit false

namespace PeerPanel

/-- The sorts of things that have names. -/
inductive Desk.Handle
  | panel | entry | search | field | widget | finder | stream | life
  deriving DecidableEq

/-- Why a step of the host has no answer. -/
inductive Desk.Denial
  /-- There is nothing of the sort under the name. -/
  | missing (h : Desk.Handle)
  | stopped (s : Stop)
  deriving DecidableEq

/-- A field of its own, with what its listener has been told since it was last asked. -/
structure Desk.OwnField where
  made : Nat
  field : Search.TextField String
  heard : List String := []

/-- A lifetime, and what its callbacks have been told since it was last asked. -/
structure Desk.Life where
  lifetime : Lifetime Desk.Stream := {}
  told : List (String × Desk.Value) := []

/-- A call to the window of a place, which depends on a widget. It is put off once before it is
made. -/
structure Desk.QueuedCall where
  place : String
  widget : Option Nat
  call : NavCall
  isPutOff : Bool := false
  deriving DecidableEq

/-- A piece of background work. -/
inductive Desk.Task
  /-- The alarm of a search that was set in a step. -/
  | alarm (setAt : Nat)
  /-- The subscription that was begun in a step. -/
  | follower (begun : Nat)
  /-- The watch for migrations of the panel that was opened in a step. -/
  | watch (opened : Nat)
  | call (c : Desk.QueuedCall)
  deriving DecidableEq

/-- The state of a host. -/
structure Desk where
  config : Config := {}
  account : Account := {}
  transfers : Transfers := {}
  time : Nat := 0
  step : Nat := 0
  entries : Table String Entry := .empty
  seats : Table String Seat := .empty
  /-- Panels that have gone, with the names of their places. What they have subscribed to and not
  called off still runs. -/
  gone : List (String × Mounted) := []
  /-- Widgets, with the steps that have made them. -/
  widgets : Table String (Nat × Widget) := .empty
  /-- What was offered to widgets, and whether they took it. -/
  offers : Table String (List (NavCall × Bool)) := .empty
  fields : Table String Desk.OwnField := .empty
  /-- Names of searches, which may belong to a panel. -/
  searchNames : Table String Nat := .empty
  /-- Searches that belong to no panel, by the steps that have made them. -/
  searches : Table Nat Search.Debounce := .empty
  finders : Table String Search.Finder := .empty
  streams : Table String Desk.Stream := .empty
  lives : Table String Desk.Life := .empty
  agenda : Agenda Desk.Task := {}

namespace Desk

/-- An action of the host. A denied action keeps what it has done before. -/
abbrev Act (α : Type) := EStateM Denial Desk α

def publishers (d : Desk) : Publishers where
  account := d.account
  transfers := d.transfers
  time := d.time
  text? := fun
    | .field made =>
      match d.fields.values.find? (·.made = made) with
      | some f => some f.field.text
      | none => do
        let m ← (d.seats.values.filterMap (·.mounted?)).find? (·.built = made)
        m.panel.field.map (·.text)
    | .search made =>
      match d.searches.get? made with
      | some s => some s.appliedText
      | none => do
        let m ← (d.seats.values.filterMap (·.mounted?)).find? (·.built = made)
        m.panel.search.map (·.appliedText)
    | _ => none
  flag? := fun
    | .panel made =>
      ((d.seats.values.filterMap (·.mounted?)).find? (·.opened = made)).map (·.panel.searchEnabled)
    | _ => none
  wrap? := fun
    | .widget made => (d.widgets.values.find? (·.1 = made)).map (·.2.wrap)
    | _ => none

/-- Change every stream, those that are followed among them. -/
def mapStreams (d : Desk) (f : Stream → Stream) : Desk :=
  { d with
    streams := d.streams.mapValues f
    lives := d.lives.mapValues fun life => { life with lifetime := life.lifetime.mapSources f } }

/-- The alarms that run, with the steps that have made their searches. -/
def alarms (d : Desk) : List (Search.Alarm × Nat) :=
  (d.searches.bindings.flatMap fun b => b.2.running.map fun alarm => (alarm, b.1)) ++
    (d.seats.values.filterMap (·.mounted?)).flatMap fun m =>
      (m.panel.search.toList.flatMap (·.running)).map fun alarm => (alarm, m.built)

/-- The alarm that was set in a step, with the step that has made its search. -/
def alarm? (d : Desk) (setAt : Nat) : Option (Search.Alarm × Nat) :=
  d.alarms.find? (·.1.setAt = setAt)

/-- What the subscription that was begun in a step follows. -/
def followed? (d : Desk) (begun : Nat) : Option Stream :=
  d.lives.values.findSome? (·.lifetime.source? begun)

/-- The panels that stand and those that have gone, with the names of their places. -/
def panels (d : Desk) : List (String × Mounted) :=
  (d.seats.bindings.filterMap fun b => b.2.mounted?.map fun m => (b.1, m)) ++ d.gone

/-- The panel that was opened in a step, with the name of its place and with its watch, as long as
that runs. -/
def watching? (d : Desk) (opened : Nat) : Option (String × Mounted × PeerView) :=
  d.panels.findSome? fun b =>
    if b.2.opened = opened then b.2.watch.map fun v => (b.1, b.2, v) else none

/-- Change the panel that was opened in a step, also when it has gone. -/
def mapOpened (d : Desk) (opened : Nat) (f : Panel → Panel) : Desk :=
  { d with
    seats := d.seats.mapValues (·.mapOpened opened f)
    gone := d.gone.map fun b => (b.1, b.2.mapOpened opened f) }

/-- Whether there are news for a task. A task that is gone is not to wait any longer. -/
def hasNews (d : Desk) (p : Publishers) : Task → Bool
  | .alarm setAt => (d.alarm? setAt).all (·.1.due ≤ d.time)
  | .follower begun => (d.followed? begun).all (·.hasNews p)
  | .watch opened => (d.watching? opened).all (·.2.2.hasNews p.account)
  | .call _ => true

/-- The order in which tasks hear of what happens in one step. A text that is typed goes before the
search that it leads to, and an alarm that is called off before the text that is searched for. A
panel that goes parts with its watch last. -/
def rank (d : Desk) : Task → Nat
  | .alarm _ => 1
  | .follower begun => ((d.followed? begun).map (·.rank)).getD Stream.lastRank
  | .watch opened =>
    if (d.watching? opened).isSome then Stream.lastRank else Stream.lastRank + 1
  | .call _ => Stream.lastRank

/-- Wake the tasks for which there are news, in the order in which they came to wait. -/
def wake (d : Desk) : Desk :=
  { d with agenda := d.agenda.wake (d.hasNews d.publishers) fun _ => 0 }

/-- Wake the tasks of some ranks for which there are news, by their ranks. -/
def wakeRanks (d : Desk) (ranks : Nat → Bool) : Desk :=
  let p := d.publishers
  { d with agenda := d.agenda.wake (fun t => ranks (d.rank t) && d.hasNews p t) d.rank }

def begunTasks (d : Desk) : List Task :=
  (if (d.alarm? d.step).isSome then [.alarm d.step] else []) ++
  (if (d.followed? d.step).isSome then [.follower d.step] else []) ++
  (if (d.watching? d.step).isSome then [.watch d.step] else [])

/-- Put the tasks on the agenda that were begun in the present step, unless they are on it. -/
def enroll (d : Desk) : Desk :=
  { d with agenda := d.agenda.begin (d.begunTasks.filter fun t => !d.agenda.ready.contains t) }

/-- Let the tasks know what has happened in a step. A task that it has begun comes after those that
follow texts, and before the others that are woken. -/
def stir (d : Desk) : Desk :=
  (d.wakeRanks (· < Stream.lastRank)).enroll.wakeRanks fun _ => true

def inStep {α : Type} (act : Act α) : Act α := fun d =>
  match act { d with step := d.step + 1 } with
  | .ok a d => .ok a d.stir
  | .error e d => .error e d.stir

def moment (d : Desk) : Search.Moment := { time := d.time, step := d.step }

def now : Act Search.Moment := do pure (← get).moment

/-- What there is, or a denial for want of it. -/
def orMissing {α : Type} (h : Handle) : Option α → Act α
  | some a => pure a
  | none => throw (.missing h)

/-- The result of an operation of a panel, or a denial. -/
def orRefused {α : Type} : Except PanelError α → Act α
  | .ok a => pure a
  | .error e => throw (.stopped (.refused e))

/-- The result of a computation on numbers, or a denial. -/
def orFault {α : Type} : Except Fault α → Act α
  | .ok a => pure a
  | .error f => throw (.stopped (.fault f))

def changeAccount {α : Type} (f : Account → α × Account) : Act α := do
  let d ← get
  let (a, account) := f d.account
  set { d with account }
  pure a

def changeTransfers {α : Type} (f : Transfers → α × Transfers) : Act α := do
  let d ← get
  let (a, transfers) := f d.transfers
  set { d with transfers }
  pure a

def entry (name : String) : Act Entry := do orMissing .entry ((← get).entries.get? name)

def setEntry (name : String) (e : Entry) : Act Unit :=
  modify fun d => { d with entries := d.entries.insert name e }

/-- Make a widget. One that had the name is gone. -/
def makeWidget (name : String) (accepts : Bool) (wrap : Wrap) : Act Unit :=
  modify fun d =>
    let made := { d with
      widgets := d.widgets.insert name (d.step, { accepts, wrap := { value := wrap } }) }
    match d.widgets.get? name with
    | some (old, w) => made.mapStreams (Stream.leaveWrap (.widget old) w.wrap)
    | none => made

/-- Change a widget. A presentation that is given is sent, also an equal one. -/
def changeWidget (name : String) (accepts : Option Bool) (wrap : Option Wrap) : Act Unit := do
  let (made, w) ← orMissing .widget ((← get).widgets.get? name)
  let changed : Widget :=
    { accepts := accepts.getD w.accepts
      wrap := match wrap with
        | some x => w.wrap.send x
        | none => w.wrap }
  modify fun d => { d with widgets := d.widgets.insert name (made, changed) }

def dropWidget (name : String) : Act Bool := do
  let d ← get
  match d.widgets.get? name with
  | some (made, w) =>
    set ({ d with widgets := d.widgets.erase name }.mapStreams
      (Stream.leaveWrap (.widget made) w.wrap))
    pure true
  | none => pure false

/-- The widget that was made in a step, with its name, if it is still there. -/
def widgetMade? (d : Desk) (made : Nat) : Option (String × Widget) :=
  (d.widgets.bindings.find? fun b => b.2.1 = made).map fun b => (b.1, b.2.2)

end Desk

end PeerPanel
