/-!
Identifiers of peers, messages and polls, and the positions of messages in a merged timeline.

A message number belongs to the history of one peer. When a chat has become a channel, the two
histories are read as one: numbers of the channel stay as they are and numbers of the earlier chat
are lowered by `historyShift`, so that the whole earlier history comes first. Numbers are 64-bit;
lowering one too far is a fault and not a wrapped number.
-/

set_option autoImplicit false
set_option relaxedAutoImplicit false

namespace PeerPanel

/-- What stops a computation on numbers of a fixed size. -/
inductive Fault
  | subtraction
  | addition
  deriving DecidableEq

def Fault.message : Fault → String
  | .subtraction => "attempt to subtract with overflow"
  | .addition => "attempt to add with overflow"

/-- The difference of two signed 64-bit numbers, if it is one itself. -/
def subtract (a b : Int) : Except Fault Int :=
  if -9223372036854775808 ≤ a - b ∧ a - b ≤ 9223372036854775807 then .ok (a - b)
  else .error .subtraction

/-- A user, a chat or a channel. -/
structure PeerId where
  number : Nat
  deriving DecidableEq

/-- The number of a message in the history of its peer. -/
structure MsgId where
  number : Int
  deriving DecidableEq

/-- A poll. -/
structure PollId where
  number : Nat
  deriving DecidableEq

/-- A message together with the peer whose history holds it. -/
structure FullId where
  peer : PeerId
  msg : MsgId
  deriving DecidableEq

/-- A position in the merged timeline of a peer and the chat it was before. -/
structure TimelineId where
  number : Int
  deriving DecidableEq

instance : LT MsgId := ⟨fun a b => a.number < b.number⟩

instance (a b : MsgId) : Decidable (a < b) := inferInstanceAs (Decidable (a.number < b.number))

instance : LT TimelineId := ⟨fun a b => a.number < b.number⟩

instance : LE TimelineId := ⟨fun a b => a.number ≤ b.number⟩

instance (a b : TimelineId) : Decidable (a < b) :=
  inferInstanceAs (Decidable (a.number < b.number))

instance (a b : TimelineId) : Decidable (a ≤ b) :=
  inferInstanceAs (Decidable (a.number ≤ b.number))

/-- How far the earlier history is lowered below the present one: 2 to the 56th. -/
def historyShift : Int := 72057594037927936

namespace TimelineId

/-- Messages of the peer itself keep their number. -/
def ofMain (m : MsgId) : TimelineId := ⟨m.number⟩

/-- Messages of the earlier chat are lowered by the shift. -/
def ofMigrated (m : MsgId) : Except Fault TimelineId :=
  (subtract m.number historyShift).map TimelineId.mk

/-- Positions below zero belong to the earlier chat. -/
def isMigrated (t : TimelineId) : Bool := t.number < 0

/-- The message number in the history that the position belongs to. -/
def msg (t : TimelineId) : MsgId :=
  if t.isMigrated then ⟨t.number + historyShift⟩ else ⟨t.number⟩

/-- The message at a position, if the history that it belongs to is part of the pair. -/
def resolve (t : TimelineId) (peer : PeerId) (migrated : Option PeerId) : Option FullId :=
  if t.isMigrated then migrated.map fun earlier => ⟨earlier, t.msg⟩ else some ⟨peer, t.msg⟩

end TimelineId

/-- Peers are written with their number after a hash sign. -/
def PeerId.text (p : PeerId) : String := "peer#" ++ toString p.number

/-- Messages are written as a peer, a slash and the number. -/
def FullId.text (f : FullId) : String := f.peer.text ++ "/" ++ toString f.msg.number

end PeerPanel
