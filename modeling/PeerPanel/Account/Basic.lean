import PeerPanel.Account.Timeline
import PeerPanel.Peer
import PeerPanel.Signal.Feed
import PeerPanel.Text.Lowercase

/-!
The account: everything that the panels of one account read.

It holds the records of peers, the messages of two timelines that know nothing of each other, and
polls, and it publishes a notice for every change that a panel may want to follow. A message that
is scheduled never meets one of the history with its number.
-/

set_option autoImplicit false
set_option relaxedAutoImplicit false

namespace PeerPanel

/-- Peers, messages and polls, with the notices of their changes. -/
structure Account where
  peers : Table PeerId Peer := .empty
  history : Timeline := {}
  scheduled : Timeline := {}
  polls : Table PollId Poll := .empty
  peerNotices : Feed PeerNotice := { capacity := 256 }
  mediaNotices : Feed MediaNotice := { capacity := 256 }
  deriving DecidableEq

namespace Account

def peer? (a : Account) (id : PeerId) : Option Peer := a.peers.get? id

def notifyPeer (a : Account) (peer : PeerId) (aspects : PeerAspects) : Account :=
  { a with peerNotices := a.peerNotices.send { peer, aspects } }

def notifyMedia (a : Account) (peer : PeerId) (scheduled : Bool) : Account :=
  { a with mediaNotices := a.mediaNotices.send { peer, scheduled } }

/-- Put a record in place. Replacing one is published as a change of the name. -/
def addPeer (a : Account) (p : Peer) : Account :=
  let stored := { a with peers := a.peers.insert p.id p }
  if a.peers.contains p.id then stored.notifyPeer p.id .ofName else stored

/-- Record that a chat has become a channel, if both are known, and publish it for both. -/
def migrate (a : Account) (chat channel : PeerId) : Bool × Account :=
  if a.peers.contains chat && a.peers.contains channel then
    let forward := a.peers.modify chat fun p => { p with migratedTo := some channel }
    let linked := forward.modify channel fun p => { p with migratedFrom := some chat }
    (true, ({ a with peers := linked }.notifyPeer chat .ofMigration).notifyPeer channel
      .ofMigration)
  else (false, a)

/-- The timeline of the history, or of what is scheduled. -/
def timeline (a : Account) (scheduled : Bool) : Timeline :=
  if scheduled then a.scheduled else a.history

/-- Put another timeline in the place of one of the two. -/
def setTimeline (a : Account) (scheduled : Bool) (t : Timeline) : Account :=
  if scheduled then { a with scheduled := t } else { a with history := t }

/-- Strike a message from the lists of the timeline that it names as its own. -/
def strike (a : Account) (m : Message) : Account :=
  a.setTimeline m.scheduled ((a.timeline m.scheduled).strike m)

/-- Take the message with a number out of one of the timelines, and hand it back. -/
def takeOut (a : Account) (scheduled : Bool) (id : FullId) : Option Message × Account :=
  match (a.timeline scheduled).get? id with
  | some m => (some m, (a.setTimeline scheduled ((a.timeline scheduled).drop id)).strike m)
  | none => (none, a)

/-- Store a message in the timeline that it belongs to, in the place of an earlier one with its
number. -/
def addMessage (a : Account) (m : Message) : Account :=
  let cleared := (a.takeOut m.scheduled m.id).2
  (cleared.setTimeline m.scheduled (((cleared.timeline m.scheduled).enlist m).put m)).notifyMedia
    m.id.peer m.scheduled

/-- Remove a message from one of the timelines, and hand it back. -/
def removeMessage (a : Account) (scheduled : Bool) (id : FullId) : Option Message × Account :=
  match a.takeOut scheduled id with
  | (some m, cleared) => (some m, cleared.notifyMedia id.peer scheduled)
  | (none, cleared) => (none, cleared)

def message? (a : Account) (id : FullId) : Option Message := a.history.get? id

def scheduledMessage? (a : Account) (id : FullId) : Option Message := a.scheduled.get? id

def addPoll (a : Account) (p : Poll) : Account := { a with polls := a.polls.insert p.id p }

def poll? (a : Account) (id : PollId) : Option Poll := a.polls.get? id

/-- The positions of a media list in the merged history of a peer and an earlier chat. -/
def mergedMedia (a : Account) (peer : PeerId) (migrated : Option PeerId) (kind : MediaKind) :
    Except Fault (List TimelineId) := do
  let earlier := match migrated with
    | some q => (a.history.listed q kind).ids
    | none => []
  let lowered ← earlier.mapM TimelineId.ofMigrated
  pure (lowered ++ (a.history.listed peer kind).ids.map TimelineId.ofMain)

/-- The positions of a media list among the scheduled messages of a peer. -/
def scheduledMedia (a : Account) (peer : PeerId) (kind : MediaKind) : List TimelineId :=
  (a.scheduled.listed peer kind).ids.map TimelineId.ofMain

/-- The listed messages of a peer whose text holds a given one, whatever the case of letters. -/
def searchMedia (a : Account) (peer : PeerId) (kind : MediaKind) (text : String) : List MsgId :=
  (a.history.listed peer kind).ids.filter fun n =>
    match a.message? ⟨peer, n⟩ with
    | some m => Text.matchesIn text m.text
    | none => false

end Account

end PeerPanel
