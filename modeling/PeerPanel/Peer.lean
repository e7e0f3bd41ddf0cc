import PeerPanel.Ids

/-!
Records of peers, and the notices that tell which part of a record has changed.
-/

set_option autoImplicit false
set_option relaxedAutoImplicit false

namespace PeerPanel

/-- The sort of conversation that a peer is. A chat may become a channel. -/
inductive PeerKind
  | user | chat | channel
  deriving DecidableEq

/-- What is known about a peer. -/
structure Peer where
  id : PeerId
  kind : PeerKind
  name : String
  /-- The channel that a chat became. -/
  migratedTo : Option PeerId := none
  /-- The chat that a channel was. -/
  migratedFrom : Option PeerId := none
  deriving DecidableEq

/-- Whether a record has a migration link in either direction. -/
def Peer.isLinked (p : Peer) : Bool := p.migratedTo.isSome || p.migratedFrom.isSome

/-- A set of properties of a peer. -/
structure PeerAspects where
  name : Bool := false
  migration : Bool := false
  members : Bool := false
  deriving DecidableEq

namespace PeerAspects

def ofName : PeerAspects := { name := true }

def ofMigration : PeerAspects := { migration := true }

def meets (a b : PeerAspects) : Bool :=
  (a.name && b.name) || (a.migration && b.migration) || (a.members && b.members)

end PeerAspects

/-- The notice that properties of a peer have changed. -/
structure PeerNotice where
  peer : PeerId
  aspects : PeerAspects
  deriving DecidableEq

/-- The notice that the shared media of a peer have changed, in its history or in what is
scheduled. -/
structure MediaNotice where
  peer : PeerId
  scheduled : Bool
  deriving DecidableEq

end PeerPanel
