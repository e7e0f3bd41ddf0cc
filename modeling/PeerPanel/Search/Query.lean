import PeerPanel.Account.Basic

/-!
A query over the shared media of a peer and of the chat it was before, and what it finds.
-/

set_option autoImplicit false
set_option relaxedAutoImplicit false

namespace PeerPanel.Search

/-- The text that is searched for, and where. -/
structure Query where
  kind : MediaKind
  peer : PeerId
  migrated : Option PeerId
  text : String := ""
  deriving DecidableEq

def Query.withText (q : Query) (text : String) : Query := { q with text }

/-- What a query has found: the messages of the peer, and those of the earlier chat if it has
searched one. -/
structure Hits where
  peer : List MsgId := []
  migrated : Option (List MsgId) := none
  deriving DecidableEq

def Hits.merged (h : Hits) : Except Fault (List TimelineId) := do
  let lowered ← (h.migrated.getD []).mapM TimelineId.ofMigrated
  pure (lowered ++ h.peer.map TimelineId.ofMain)

/-- Search an account. An empty text finds nothing, and searches no earlier chat. -/
def run (a : Account) (q : Query) : Hits :=
  if q.text = "" then {}
  else
    { peer := a.searchMedia q.peer q.kind q.text
      migrated := q.migrated.map fun earlier => a.searchMedia earlier q.kind q.text }

/-- A query put aside together with what it had found, if it had been searched. -/
structure Saved where
  query : Query
  peerHits : Option (List MsgId) := none
  migratedHits : Option (List MsgId) := none
  deriving DecidableEq

end PeerPanel.Search
