import PeerPanel.Search.Query
import PeerPanel.Section

/-!
Entries of the navigation: what a panel has shown, so that it can be shown again.

An entry holds its subject, the section with what belongs to it, and the state of the search. A
request names an entry, or a peer and a section for which the entry is yet to be made.
-/

set_option autoImplicit false
set_option relaxedAutoImplicit false

namespace PeerPanel

/-- The section of an entry. A media list comes with the search that was put aside. -/
inductive Content
  | profile
  | media (kind : MediaKind) (search : Search.Saved)
  | commonGroups
  | members
  | settings (page : SettingsPage)
  | downloads
  | pollResults
  deriving DecidableEq

/-- The section that a content belongs to. -/
def Content.shown : Content → Section
  | profile => .profile
  | media kind _ => .media kind
  | commonGroups => .commonGroups
  | members => .members
  | settings page => .settings page
  | downloads => .downloads
  | pollResults => .pollResults

/-- One entry of the navigation. -/
structure Entry where
  subject : Subject
  migrated : Option PeerId := none
  content : Content
  fieldText : String := ""
  searchEnabled : Bool := false
  startsFocused : Bool := false
  deriving DecidableEq

namespace Entry

def profile (peer : PeerId) (migrated : Option PeerId) : Entry :=
  { subject := .peer peer, migrated, content := .profile }

def media (peer : PeerId) (migrated : Option PeerId) (kind : MediaKind) : Entry :=
  { subject := .peer peer, migrated
    content := .media kind { query := { kind, peer, migrated } } }

def commonGroups (user : PeerId) : Entry := { subject := .peer user, content := .commonGroups }

def members (peer : PeerId) (migrated : Option PeerId) : Entry :=
  { subject := .peer peer, migrated, content := .members }

def settings (owner : PeerId) (page : SettingsPage) : Entry :=
  { subject := .settings owner, content := .settings page }

def downloads : Entry := { subject := .downloads, content := .downloads }

def pollResults (id : PollId) (context : FullId) : Entry :=
  { subject := .poll id context, content := .pollResults }

def shown (e : Entry) : Section := e.content.shown

/-- The search that was put aside. Only media lists have one. -/
def search (e : Entry) : Except PanelError Search.Saved :=
  match e.content with
  | .media _ s => .ok s
  | c => .error (.entryMismatch .media c.shown.kind)

/-- Put another search aside in a media list. -/
def setSearch (e : Entry) (s : Search.Saved) : Except PanelError Entry :=
  match e.content with
  | .media kind _ => .ok { e with content := .media kind s }
  | c => .error (.entryMismatch .media c.shown.kind)

/-- The entry with which a section of a peer is opened. A chat that has become a channel gives way
to the channel, and the earlier chat of a channel is kept beside it. -/
def default (a : Account) (peer : PeerId) (s : Section) : Except PanelError Entry :=
  let present := ((a.peer? peer).bind (·.migratedTo)).getD peer
  let record := a.peer? present
  let migrated := record.bind (·.migratedFrom)
  match s with
  | .profile => .ok (profile present migrated)
  | .media kind => .ok (media present migrated kind)
  | .commonGroups =>
    match record with
    | some r => if r.kind = .user then .ok (commonGroups present)
      else .error (.noDefaultSection .commonGroups)
    | none => .error (.noDefaultSection .commonGroups)
  | .members => .ok (members present migrated)
  | .settings _ | .downloads | .pollResults => .error (.noDefaultSection s.kind)

end Entry

/-- What a navigator is asked to show. -/
inductive Request
  /-- A section of a peer, as it is when first opened. -/
  | fresh (peer : PeerId) (shown : Section)
  /-- An entry as it stands. -/
  | entry (e : Entry)
  deriving DecidableEq

def Request.resolve (a : Account) : Request → Except PanelError Entry
  | fresh peer s => Entry.default a peer s
  | entry e => .ok e

end PeerPanel
