import PeerPanel.Message

/-!
What a panel is about, which of its sections is shown, and the ways in which a request can be
refused.
-/

set_option autoImplicit false
set_option relaxedAutoImplicit false

namespace PeerPanel

/-- What a panel is about. -/
inductive Subject
  | peer (id : PeerId)
  | settings (owner : PeerId)
  | downloads
  | poll (id : PollId) (context : FullId)
  deriving DecidableEq

namespace Subject

def peer? : Subject → Option PeerId
  | peer id => some id
  | _ => none

def settingsOwner? : Subject → Option PeerId
  | settings owner => some owner
  | _ => none

def isDownloads : Subject → Bool
  | downloads => true
  | _ => false

def poll? : Subject → Option PollId
  | poll id _ => some id
  | _ => none

def pollContext? : Subject → Option FullId
  | poll _ context => some context
  | _ => none

def text : Subject → String
  | peer id => id.text
  | settings owner => "settings of " ++ owner.text
  | downloads => "downloads"
  | poll id context => "poll#" ++ toString id.number ++ " in " ++ context.text

end Subject

/-- A page of the settings. -/
inductive SettingsPage
  | main | information | notifications | privacySecurity | advanced | chat | calls | folders
  deriving DecidableEq

/-- The part of its subject that a panel shows. -/
inductive Section
  | profile
  | media (kind : MediaKind)
  | commonGroups
  | members
  | settings (page : SettingsPage)
  | downloads
  | pollResults
  deriving DecidableEq

/-- The sort of a section, without its media list or page. -/
inductive SectionKind
  | profile | media | commonGroups | members | settings | downloads | pollResults
  deriving DecidableEq

def SectionKind.name : SectionKind → String
  | profile => "Profile"
  | media => "Media"
  | commonGroups => "CommonGroups"
  | members => "Members"
  | settings => "Settings"
  | downloads => "Downloads"
  | pollResults => "PollResults"

namespace Section

def kind : Section → SectionKind
  | profile => .profile
  | media _ => .media
  | commonGroups => .commonGroups
  | members => .members
  | settings _ => .settings
  | downloads => .downloads
  | pollResults => .pollResults

def media? : Section → Option MediaKind
  | media k => some k
  | _ => none

def page? : Section → Option SettingsPage
  | settings p => some p
  | _ => none

end Section

/-- Why a request to a panel is refused. -/
inductive PanelError
  /-- The subject is no peer. -/
  | notAPeer (subject : Subject)
  /-- The section shows no media list. -/
  | notAMediaSection (found : SectionKind)
  /-- An entry holds other content than was asked for. -/
  | entryMismatch (expected found : SectionKind)
  /-- A peer has no such section of its own. -/
  | noDefaultSection (found : SectionKind)
  deriving DecidableEq

/-- What keeps an operation of a panel from its result: it is refused, or a number is out of
range. -/
inductive Stop
  | refused (e : PanelError)
  | fault (f : Fault)
  deriving DecidableEq

def PanelError.message : PanelError → String
  | notAPeer subject => "Operation requires a peer key, got " ++ subject.text
  | notAMediaSection found => "Operation requires a media section, got " ++ found.name
  | entryMismatch expected found =>
    "Memento kind mismatch: expected " ++ expected.name ++ ", found " ++ found.name
  | noDefaultSection found => "Section " ++ found.name ++ " has no default content for a peer"

end PeerPanel
