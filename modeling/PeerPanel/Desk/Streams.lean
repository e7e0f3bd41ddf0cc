import PeerPanel.Desk.Panels

/-!
The streams and lifetimes of a desk.
-/

set_option autoImplicit false
set_option relaxedAutoImplicit false

namespace PeerPanel.Desk

/-- An anchor and how much is asked for on its two sides. -/
structure Range where
  around : TimelineId
  before : Nat
  after : Nat

/-- What a stream is opened on. -/
inductive Source
  | media (panel : String) (range : Range)
  | baseMedia (panel : String) (range : Range)
  | hits (search : Ref) (range : Range)
  | history (key : WindowKey) (range : Range)
  | scheduled (key : WindowKey) (range : Range)
  | queryText (panel : String)
  | appliedText (search : Ref)
  | fieldText (field : Ref)
  | searchEnabled (panel : String)
  | wrap (panel : String)
  | transfers (panel : Option String)
  | transferChanges
  | peer (id : PeerId) (aspects : PeerAspects)
  | mediaNotices

def textTap (owner : Owner) : Stream := .text { owner }

def openSource : Source → Act Stream
  | .media panel r => do
    let a := (← get).account
    match ← occupant panel with
    | .panel m =>
      match m.panel.mediaView a r.around r.before r.after with
      | .ok v => pure (.view v)
      | .error e => throw (.stopped e)
    | _ =>
      let p ← pane panel
      pure (.view (← orRefused (p.baseView a r.around r.before r.after)))
  | .baseMedia panel r => do
    let p ← pane panel
    pure (.view (← orRefused (p.baseView (← get).account r.around r.before r.after)))
  | .hits ref r => do
    let (_, s) ← search ref
    pure (.view (← orFault (Panel.searchView s (← get).account r.around r.before r.after)))
  | .history key r => do
    pure (.view ((← get).account.historyView { key with around := r.around } r.before r.after))
  | .scheduled key r => do
    pure (.view ((← get).account.scheduledView { key with around := r.around } r.before r.after))
  | .queryText panel => do
    match ← occupant panel with
    | .panel m =>
      match m.panel.search with
      | some _ => pure (textTap (.search m.built))
      | none => pure (.single (.text ""))
    | _ => pure (.single (.text ""))
  | .appliedText ref => do
    let (made, _) ← search ref
    pure (textTap (.search made))
  | .fieldText (.ofPanel panel) => do
    let m ← mounted panel
    let _ ← orMissing .field m.panel.field
    pure (textTap (.field m.built))
  | .fieldText (.named name) => do
    let f ← ownField name
    pure (textTap (.field f.made))
  | .searchEnabled panel => do
    let m ← mounted panel
    pure (.flag { owner := .panel m.opened })
  | .wrap panel => do
    match ← wrapOf panel with
    | some (made, _) => pure (.wrap { owner := .widget made })
    | none => pure (.single (.wrap .layer))
  | .transfers panel => do
    if let some name := panel then
      let _ ← occupant name
    pure (.transfers (← get).transfers.view)
  | .transferChanges => do pure (.transferChanges (← get).transfers.changes.place)
  | .peer id aspects => do pure (.peer ((← get).account.peerView id aspects))
  | .mediaNotices => do pure (.mediaNotices (← get).account.mediaNotices.place)

def openStream (name : String) (source : Source) : Act Unit := do
  let s ← openSource source
  modify fun d => { d with streams := d.streams.insert name s }

/-- Take the values that a stream has ready, up to a number of them. Values come with the number of
their repetitions; a stream that has ended is gone. -/
def readStream (name : String) (most : Option Nat) : Act (List (Nat × Value) × Bool) := do
  let d ← get
  let s ← orMissing .stream (d.streams.get? name)
  let p := d.publishers
  let (values, isOver, s) ← orFault (s.read p (most.getD (Stream.readyBound p)))
  set { d with streams := if isOver then d.streams.erase name else d.streams.insert name s }
  pure (runLengths values, isOver)

def closeStream (name : String) : Act Bool := do
  let d ← get
  set { d with streams := d.streams.erase name }
  pure (d.streams.contains name)

def life (name : String) : Act Life := do orMissing .life ((← get).lives.get? name)

def setLife (name : String) (l : Life) : Act Unit :=
  modify fun d => { d with lives := d.lives.insert name l }

def follow (name tag : String) (source : Source) : Act Unit := do
  let s ← openSource source
  let l ← life name
  setLife name { l with lifetime := l.lifetime.start tag s (← get).step }

def waitFor (name tag : String) (ms : Nat) : Act Unit := do
  let l ← life name
  let moment ← now
  setLife name { l with lifetime := l.lifetime.start tag (.wait (moment.after ms)) moment.step }

/-- What the callbacks of a lifetime have been told since it was last asked. -/
def takeLifeLog (name : String) : Act (List (String × Value)) := do
  let l ← life name
  setLife name { l with told := [] }
  pure l.told

def endLife (name : String) : Act Unit := do
  let l ← life name
  setLife name { l with lifetime := l.lifetime.destroy }

end PeerPanel.Desk
