import PeerPanel.Desk.Searches

/-!
The panels of a desk: opening and dropping them, showing another section, and sending their calls
to the widget and the window.
-/

set_option autoImplicit false
set_option relaxedAutoImplicit false

namespace PeerPanel.Desk

/-- The place with a name, which is vacant at first. -/
def seat (d : Desk) (name : String) : Seat := (d.seats.get? name).getD {}

def changeSeat (name : String) (f : Seat → Seat) : Act Unit :=
  modify fun d => { d with seats := d.seats.insert name (f (d.seat name)) }

def partField (d : Desk) (m : Mounted) : Desk :=
  match m.panel.field with
  | some f => d.mapStreams (Stream.leaveText (.field m.built) f.text)
  | none => d

/-- What stood at a place is gone, with its field, its search, its flag and what it has subscribed
to. -/
def leavePanel (d : Desk) (name : String) : Occupant → Desk
  | .panel m =>
    let parted := ((d.partField m).part m.built m.panel.search).mapStreams
      (Stream.leaveFlag (.panel m.opened) m.panel.searchEnabled)
    { parted with gone := parted.gone ++ [(name, m.leave)] }
  | _ => d

/-- Put something at a place. What stood there before is gone. -/
def occupy (name : String) (o : Occupant) : Act Unit := do
  let old := ((← get).seat name).occupant
  changeSeat name fun s => { s with occupant := o }
  modify (·.leavePanel name old)

/-- Open a panel that shows an entry, in a widget if there is one with the name. Its tasks are begun
before what stood at the place is gone. -/
def openPanel (name entryName : String) (widget : Option String) : Act Mounted := do
  let e ← entry entryName
  let d ← get
  let panel ← orRefused (Panel.ofEntry d.account d.config.search (← now) e)
  let made := (widget.bind fun w => d.widgets.get? w).map (·.1)
  let m : Mounted := { panel, widget := made, opened := d.step, built := d.step }
  changeSeat name fun s => { s with occupant := .panel m }
  modify fun new => new.enroll.leavePanel name (d.seat name).occupant
  pure m

def occupant (name : String) : Act Occupant := do
  match ((← get).seat name).occupant with
  | .vacant => throw (.missing .panel)
  | o => pure o

def pane (name : String) : Act Pane := do orMissing .panel ((← get).seat name).pane?

/-- Drop what stands at a place, and say whether there was anything. -/
def dropPanel (name : String) : Act Bool := do
  if ((← get).seat name).occupant = .vacant then pure false
  else
    occupy name .vacant
    pure true

/-- Change the panel at a place, keeping its field and its search. -/
def changePanel (name : String) (f : Panel → Panel) : Act Mounted := do
  let m ← mounted name
  let m := { m with panel := f m.panel }
  changeSeat name fun s => { s with occupant := .panel m }
  pure m

def typeText (name text : String) : Act Mounted := do
  let m ← mounted name
  let _ ← orMissing .field m.panel.field
  let d ← get
  let moment ← now
  changePanel name (·.typeText d.account moment text)

def fieldText : Ref → Act String
  | .ofPanel panel => do
    let m ← mounted panel
    pure (← orMissing .field m.panel.field).value
  | .named name => do pure (← ownField name).field.value

/-- Build the panel at a place anew from an entry. Its old field and search are gone, unless the
operation is refused. -/
def rebuildPanel (name entryName : String)
    (f : Panel → Account → SearchConfig → Search.Moment → Entry → Except PanelError Unit × Panel) :
    Act Mounted := do
  let e ← entry entryName
  let old ← mounted name
  let d ← get
  let (result, panel) := f old.panel d.account d.config.search (← now) e
  let left := { old with panel }
  changeSeat name fun s => { s with occupant := .panel left }
  orRefused result
  let m := { left with built := d.step }
  changeSeat name fun s => { s with occupant := .panel m }
  modify fun d => (d.partField old).part old.built old.panel.search
  pure m

def saveSearch (name entryName : String) : Act Entry := do
  let e ← entry entryName
  let m ← mounted name
  let (result, left) := m.panel.saveInto e
  setEntry entryName left
  orRefused result
  pure left

/-- Send a call by way of the widget of a panel, if it is still there, to the window. -/
def navigate (name : String) (call : NavCall) : Act Unit := do
  let d ← get
  let widget := match ← occupant name with
    | .panel m => m.widget.bind d.widgetMade?
    | _ => none
  let arrived := deliver (widget.map (·.2)) call
  changeSeat name fun s => { s with told := s.told ++ arrived.told.toList }
  match widget, arrived.offered with
  | some (w, _), some offer =>
    modify fun d => { d with offers := d.offers.insert w ((d.offers.get? w).getD [] ++ [offer]) }
  | _, _ => pure ()

/-- What the window was told by the panels of a place since it was last asked. -/
def takeTold (name : String) : Act (List NavCall) := do
  let told := ((← get).seat name).told
  changeSeat name fun s => { s with told := [] }
  pure told

/-- What the widgets with a name were offered since it was last asked. -/
def takeOffers (name : String) : Act (List (NavCall × Bool)) := do
  let d ← get
  set { d with offers := d.offers.erase name }
  pure ((d.offers.get? name).getD [])

/-- The presentation of the panel at a place: that of its widget, if it is still there. -/
def wrapOf (name : String) : Act (Option (Nat × Wrap)) := do
  let m ← mounted name
  let d ← get
  pure (m.widget.bind fun made => (d.widgetMade? made).map fun w => (made, w.2.wrap.value))

end PeerPanel.Desk
