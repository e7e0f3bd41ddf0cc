import PeerPanel.Config.Basic
import PeerPanel.Navigation
import PeerPanel.Panel.Pane
import PeerPanel.Search.Debounce
import PeerPanel.Search.TextField

/-!
A panel with a search.

A media list has a search, and a field for it if the configuration allows the list to be searched;
some other sections have a field alone. The field tells the search what to look for, so the two
are built together, from the entry that the panel is to show, and together they are replaced. An
operation that can be refused hands back the panel or the entry that it leaves in either case.
-/

set_option autoImplicit false
set_option relaxedAutoImplicit false

namespace PeerPanel

open Search (Moment Query Debounce TextField)

/-- A pane with its search. The listener of the field is the query that it fills in. -/
structure Panel extends Pane where
  field : Option (TextField Query) := none
  search : Option Debounce := none
  searchEnabled : Watched Bool := { value := false }
  startsFocused : Bool := false
  /-- The subscriptions of the panel: the watch for migrations of its subject, if there is one. -/
  lifetime : Lifetime PeerView := {}
  deriving DecidableEq

def SearchConfig.hasField (c : SearchConfig) : Section → Bool
  | .media kind => c.allows kind
  | .commonGroups | .members | .profile => true
  | .settings _ | .downloads | .pollResults => false

namespace Panel

/-- The search that the shown section needs, and the query that the field fills in. -/
def searchFor (p : Panel) (a : Account) (c : SearchConfig) (e : Entry) :
    Except PanelError (Option (Debounce × Query)) :=
  match p.shown with
  | .media kind => do
    let saved ← e.search
    let peer ← p.peer
    pure (some (.ofSaved a c.delayMs saved, { kind, peer, migrated := p.migrated }))
  | _ => .ok none

/-- Build the field and the search of the shown section anew from an entry. -/
def rebuild (p : Panel) (a : Account) (c : SearchConfig) (now : Moment) (e : Entry) :
    Except PanelError Unit × Panel :=
  match p.searchFor a c e with
  | .error refusal => (.error refusal, p)
  | .ok built =>
    let bare := { p with field := none, search := built.map (·.1) }
    if c.hasField p.shown then
      let fielded := match built with
        | some (search, template) =>
          let (field, call) := (TextField.ofText e.fieldText).listen template
          { bare with
            field := some field
            search := some (search.request a now (call.1.withText call.2)) }
        | none => { bare with field := some (.ofText e.fieldText) }
      (.ok (), { fielded with
        searchEnabled := p.searchEnabled.update e.searchEnabled
        startsFocused := e.startsFocused })
    else (.ok (), bare)

/-- The panel of an entry before its field and its search are built. -/
def bare (e : Entry) : Panel := { subject := e.subject, migrated := e.migrated, shown := e.shown }

/-- Begin the watch for migrations in a step, if there is to be one. -/
def beginWatch (p : Panel) (a : Account) (step : Nat) : Panel :=
  { p with lifetime := match p.migrationWatch a with
      | some v => p.lifetime.start "migrations" v step
      | none => p.lifetime }

def ofEntry (a : Account) (c : SearchConfig) (now : Moment) (e : Entry) :
    Except PanelError Panel :=
  match (bare e).rebuild a c now e with
  | (.ok (), built) => .ok (built.beginWatch a now.step)
  | (.error refusal, _) => .error refusal

/-- Show the section of an entry in the panel as it stands. If that is refused, the section that was
shown is put back. -/
def switchTo (p : Panel) (a : Account) (c : SearchConfig) (now : Moment) (e : Entry) :
    Except PanelError Unit × Panel :=
  match { p with shown := e.shown }.rebuild a c now e with
  | (.ok (), switched) => (.ok (), switched)
  | (.error refusal, left) => (.error refusal, { left with shown := p.shown })

/-- Type a text into the field, which tells the search. -/
def typeText (p : Panel) (a : Account) (now : Moment) (text : String) : Panel :=
  match p.field with
  | some field =>
    let (field, call) := field.edit text
    { p with
      field := some field
      search := match call with
        | some (template, heard) => p.search.map (·.request a now (template.withText heard))
        | none => p.search }
  | none => p

/-- Let the time come: a search whose delay has passed is applied. -/
def reach (p : Panel) (a : Account) (time : Nat) : Panel :=
  { p with search := p.search.map (·.reach a time) }

def setSearchEnabled (p : Panel) (enabled : Bool) : Panel :=
  { p with searchEnabled := p.searchEnabled.update enabled }

/-- The search put aside, if there is one, for an entry that can hold it. -/
def savedFor (p : Panel) (e : Entry) : Except PanelError (Option Search.Saved) :=
  match p.search with
  | some s => e.search.map fun _ => some s.save
  | none => .ok none

/-- Put the text of the field into an entry, with whether the field is shown. -/
def noteField (p : Panel) (e : Entry) : Entry :=
  match p.field with
  | some f => { e with fieldText := f.value, searchEnabled := p.searchEnabled.value }
  | none => e

def saveInto (p : Panel) (e : Entry) : Except PanelError Unit × Entry :=
  match p.savedFor e with
  | .error refusal => (.error refusal, e)
  | .ok none => (.ok (), p.noteField e)
  | .ok (some s) =>
    match (p.noteField e).setSearch s with
    | .ok stored => (.ok (), stored)
    | .error refusal => (.error refusal, p.noteField e)

/-- Whether an entry can be shown by the panel as it stands. -/
def admits (p : Panel) (e : Entry) : Bool :=
  e.subject.peer? = p.subject.peer? && e.migrated = p.migrated &&
    e.subject.settingsOwner? = p.subject.settingsOwner?

/-- The query for a text in the media list that is shown. -/
def query (p : Panel) (text : String) : Except PanelError Query := do
  let kind ← p.mediaKind
  let peer ← p.peer
  pure { kind, peer, migrated := p.migrated, text }

def searchView (s : Debounce) (a : Account) (around : TimelineId) (before after : Nat) :
    Except Fault LiveView :=
  a.searchView s.applied (s.finder.hits? s.applied) around before after

/-- A view of the media that are shown: of the hits while a text is searched for, else of the
merged history. -/
def mediaView (p : Panel) (a : Account) (around : TimelineId) (before after : Nat) :
    Except Stop LiveView :=
  match p.search with
  | some s =>
    if s.applied.text = "" then
      let key : WindowKey :=
        { peer := s.applied.peer, migrated := s.applied.migrated, around, kind := s.applied.kind }
      .ok (a.historyView key before after)
    else (searchView s a around before after).mapError .fault
  | none => (p.baseView a around before after).mapError .refused

/-- Let the watch that was begun in a step read what is new. It fires once for every notice, if the
peer is linked by now. -/
def watchTurn (p : Panel) (begun : Nat) (a : Account) : Nat × Panel :=
  match p.lifetime.source? begun with
  | some v =>
    let (notices, lifetime) := p.lifetime.run begun (PeerView.ask a) (v.readyBound a)
    let linked := match a.peer? v.peer with
      | some record => record.isLinked
      | none => false
    (if linked then notices.length else 0, { p with lifetime })
  | none => (0, p)

/-- The call that opens the shown section of a migrated peer anew. -/
def reopening (p : Panel) (peer : PeerId) : NavCall :=
  .display (.fresh peer p.shown)
    { way := .backward, motion := .instant, activation := .background }

/-- The panel goes, and what it has subscribed to is called off. -/
def leave (p : Panel) : Panel := { p with lifetime := p.lifetime.destroy }

end Panel

end PeerPanel
