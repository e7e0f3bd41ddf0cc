import PeerPanel.Message
import PeerPanel.Table

/-!
The messages of one timeline, together with an index that answers which messages of a peer a
shared media list shows.

Messages and index are changed apart: a message is put or dropped under its number, and it is
enlisted or struck under its peer and the media lists that show it. That the two agree is kept by
the account, see `PeerPanel.Account.Basic`.
-/

set_option autoImplicit false
set_option relaxedAutoImplicit false

namespace PeerPanel

/-- The numbers listed under every peer and media list. -/
abbrev MediaIndex := Table (PeerId × MediaKind) MsgSet

namespace MediaIndex

/-- The numbers listed under a peer and a media list. -/
def listed (index : MediaIndex) (peer : PeerId) (kind : MediaKind) : MsgSet :=
  (index.get? (peer, kind)).getD .empty

/-- List a number of a peer under one more media list. -/
def add (index : MediaIndex) (id : FullId) (kind : MediaKind) : MediaIndex :=
  index.insert (id.peer, kind) ((index.listed id.peer kind).insert id.msg)

def strike (index : MediaIndex) (id : FullId) (kind : MediaKind) : MediaIndex :=
  index.modify (id.peer, kind) (·.erase id.msg)

private theorem eq_pair_of_mem {p q : PeerId} {k l : MediaKind} (h : p = q ∧ k = l) :
    (p, k) = (q, l) := by
  rw [h.1, h.2]

theorem mem_listed_add (index : MediaIndex) (id : FullId) (kind k : MediaKind) (p : PeerId)
    (n : MsgId) :
    n ∈ (index.add id kind).listed p k ↔
      (p = id.peer ∧ k = kind ∧ n = id.msg) ∨ n ∈ index.listed p k := by
  unfold listed add
  rw [Table.get?_insert]
  by_cases h : (p, k) = (id.peer, kind)
  · obtain ⟨hp, hk⟩ := Prod.mk.inj h
    subst hp hk
    simp [listed]
  · rw [if_neg h]
    exact ⟨.inr, fun h' => h'.resolve_left fun hc => h (eq_pair_of_mem ⟨hc.1, hc.2.1⟩)⟩

theorem mem_listed_strike (index : MediaIndex) (id : FullId) (kind k : MediaKind) (p : PeerId)
    (n : MsgId) :
    n ∈ (index.strike id kind).listed p k ↔
      n ∈ index.listed p k ∧ ¬ (p = id.peer ∧ k = kind ∧ n = id.msg) := by
  unfold listed strike
  rw [Table.get?_modify]
  by_cases h : (p, k) = (id.peer, kind)
  · obtain ⟨hp, hk⟩ := Prod.mk.inj h
    subst hp hk
    cases index.get? (id.peer, k) <;> simp
  · rw [if_neg h]
    exact ⟨fun hn => ⟨hn, fun hc => h (eq_pair_of_mem ⟨hc.1, hc.2.1⟩)⟩, And.left⟩

end MediaIndex

/-- The messages of a timeline, and the index over them. -/
structure Timeline where
  messages : Table FullId Message := .empty
  index : MediaIndex := .empty
  deriving DecidableEq

namespace Timeline

def get? (t : Timeline) (id : FullId) : Option Message := t.messages.get? id

def listed (t : Timeline) (peer : PeerId) (kind : MediaKind) : MsgSet := t.index.listed peer kind

/-- Store a message under its number, in the place of an earlier one. -/
def put (t : Timeline) (m : Message) : Timeline := { t with messages := t.messages.insert m.id m }

/-- Forget the message with a number. The lists stay as they are. -/
def drop (t : Timeline) (id : FullId) : Timeline := { t with messages := t.messages.erase id }

/-- List a message under every media list that shows it. -/
def enlist (t : Timeline) (m : Message) : Timeline :=
  { t with index := m.lists.foldl (·.add m.id ·) t.index }

/-- Strike a message from every media list that shows it. -/
def strike (t : Timeline) (m : Message) : Timeline :=
  { t with index := m.lists.foldl (·.strike m.id ·) t.index }

end Timeline

end PeerPanel
