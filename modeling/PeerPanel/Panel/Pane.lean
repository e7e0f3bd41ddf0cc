import PeerPanel.Account.LiveView
import PeerPanel.Section

/-!
A pane is what every panel has: a subject, the earlier chat that belongs to it, and the section
that is shown. What a pane can offer by itself is the view of its media, the poll of its subject,
and the watch for a migration.
-/

set_option autoImplicit false
set_option relaxedAutoImplicit false

namespace PeerPanel

/-- A subject and the section of it that is shown. -/
structure Pane where
  subject : Subject
  migrated : Option PeerId
  shown : Section
  deriving DecidableEq

namespace Pane

def peer (p : Pane) : Except PanelError PeerId :=
  match p.subject.peer? with
  | some id => .ok id
  | none => .error (.notAPeer p.subject)

def mediaKind (p : Pane) : Except PanelError MediaKind :=
  match p.shown.media? with
  | some kind => .ok kind
  | none => .error (.notAMediaSection p.shown.kind)

/-- The poll that was posted by the message of the subject. -/
def poll? (p : Pane) (a : Account) : Option PollId := do
  let context ← p.subject.pollContext?
  let m ← a.message? context
  m.poll?

/-- Whether a position of a pair of histories holds a scheduled message and no other. -/
def isScheduled (a : Account) (peer : PeerId) (migrated : Option PeerId) (around : TimelineId) :
    Bool :=
  match around.resolve peer migrated with
  | some id => (a.message? id).isNone && (a.scheduledMessage? id).isSome
  | none => false

/-- A view of the media that are shown: of the scheduled ones if the anchor is a scheduled message,
else of the merged history. -/
def baseView (p : Pane) (a : Account) (around : TimelineId) (before after : Nat) :
    Except PanelError LiveView := do
  let peer ← p.peer
  let kind ← p.mediaKind
  let key : WindowKey := { peer, migrated := p.migrated, around, kind }
  if isScheduled a peer p.migrated around then pure (a.scheduledView key before after)
  else pure (a.historyView key before after)

/-- A watch for migrations. It is set for a chat or a channel with no earlier chat beside it. -/
def migrationWatch (p : Pane) (a : Account) : Option PeerView := do
  let peer ← p.subject.peer?
  let record ← a.peer? peer
  if record.kind = .user ∨ p.migrated.isSome then none else some (a.peerView peer .ofMigration)

end Pane

end PeerPanel
