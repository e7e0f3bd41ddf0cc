import PeerPanel.Proofs.Account.PeerReading

/-!
What a change of an account does to the records of peers, and what it tells those that follow them.

Only two changes touch records: one puts a record in place, the other links two that are known
(`Account.Change.migration?`). What is published is said by `Account.Change.peerNews`, without a
look at what the change does to the records.
-/

set_option autoImplicit false
set_option relaxedAutoImplicit false

namespace PeerPanel

/-- The channel that a peer became, and the chat that it was. -/
def Peer.links (p : Peer) : Option PeerId × Option PeerId := (p.migratedTo, p.migratedFrom)

namespace Account

def migratedTo? (a : Account) (id : PeerId) : Option PeerId := (a.peer? id).bind (·.migratedTo)

def migratedFrom? (a : Account) (id : PeerId) : Option PeerId := (a.peer? id).bind (·.migratedFrom)

/-- The links of the record that is stored of a peer. -/
def links (a : Account) (id : PeerId) : Option PeerId × Option PeerId :=
  (a.migratedTo? id, a.migratedFrom? id)

def knows (a : Account) (id : PeerId) : Bool := (a.peer? id).isSome

/-- The chat and the channel that a change links, if it is made in an account. -/
def Change.migration? (a : Account) : Change → Option (PeerId × PeerId)
  | migration chat channel =>
    if a.knows chat && a.knows channel then some (chat, channel) else none
  | _ => none

/-- What a change tells those that follow peers, if it is made in an account. -/
def Change.peerNews (a : Account) : Change → List PeerNotice
  | peer p => if a.knows p.id then [⟨p.id, .ofName⟩] else []
  | migration chat channel =>
    if a.knows chat && a.knows channel then [⟨chat, .ofMigration⟩, ⟨channel, .ofMigration⟩] else []
  | peerNotice who aspects => [⟨who, aspects⟩]
  | _ => []

variable (a : Account) (id : PeerId)

private theorem contains_peers : a.peers.contains id = a.knows id := rfl

private theorem peers_setTimeline (s : Bool) (t : Timeline) :
    (a.setTimeline s t).peers = a.peers := by
  cases s <;> rfl

private theorem peers_takeOut (s : Bool) (i : FullId) : (a.takeOut s i).2.peers = a.peers := by
  unfold takeOut
  split
  · rw [strike, peers_setTimeline, peers_setTimeline]
  · rfl

theorem peers_addMessage (m : Message) : (a.addMessage m).peers = a.peers := by
  simp only [addMessage, notifyMedia, peers_setTimeline, peers_takeOut]

theorem peers_removeMessage (s : Bool) (i : FullId) : (a.removeMessage s i).2.peers = a.peers := by
  have same := a.peers_takeOut s i
  rw [removeMessage]
  generalize a.takeOut s i = taken at same
  obtain ⟨_ | m, cleared⟩ := taken
  · exact same
  · exact same

theorem peer?_addPeer (p : Peer) :
    (a.addPeer p).peer? id = if id = p.id then some p else a.peer? id := by
  unfold addPeer
  split <;> exact Table.get?_insert ..

theorem peer?_migrate {chat channel : PeerId} (known : a.knows chat && a.knows channel) :
    (a.migrate chat channel).2.peer? id = (a.peer? id).map fun p =>
      { p with
        migratedTo := if id = chat then some channel else p.migratedTo
        migratedFrom := if id = channel then some chat else p.migratedFrom } := by
  rw [migrate, contains_peers, contains_peers, if_pos known]
  show Table.get? (Table.modify _ channel _) id = (Table.get? a.peers id).map _
  rw [Table.get?_modify]
  by_cases isChannel : id = channel
  · subst isChannel
    rw [if_pos rfl, Table.get?_modify]
    by_cases isChat : id = chat
    · subst isChat
      cases Table.get? a.peers id <;> simp
    · cases Table.get? a.peers id <;> simp [isChat]
  · rw [if_neg isChannel, Table.get?_modify]
    by_cases isChat : id = chat
    · subst isChat
      cases Table.get? a.peers id <;> simp [isChannel]
    · cases Table.get? a.peers id <;> simp [isChannel, isChat]

theorem migrate_of_unknown {chat channel : PeerId} (unknown : ¬ (a.knows chat && a.knows channel)) :
    (a.migrate chat channel).2 = a := by
  rw [migrate, contains_peers, contains_peers, if_neg unknown]

/-- The links of a peer change only if its record is put in place or linked. -/
theorem links_apply (c : Change) :
    (a.apply c).links id =
      match c with
      | .peer p => if id = p.id then p.links else a.links id
      | c =>
        match c.migration? a with
        | some (chat, channel) =>
          (if id = chat then some channel else a.migratedTo? id,
            if id = channel then some chat else a.migratedFrom? id)
        | none => a.links id := by
  cases c with
  | peer p =>
    simp only [links, migratedTo?, migratedFrom?, apply, peer?_addPeer]
    by_cases h : id = p.id
    · simp [h, Peer.links]
    · simp [h]
  | migration chat channel =>
    by_cases known : a.knows chat && a.knows channel
    · have linked : Change.migration? a (.migration chat channel) = some (chat, channel) :=
        if_pos known
      simp only [linked, links, migratedTo?, migratedFrom?, apply, peer?_migrate a id known]
      obtain ⟨knowsChat, knowsChannel⟩ := Bool.and_eq_true_iff.mp known
      cases stored : a.peer? id with
      | some p => rfl
      | none =>
        have notChat : id ≠ chat := by
          rintro rfl
          rw [knows, stored] at knowsChat
          cases knowsChat
        have notChannel : id ≠ channel := by
          rintro rfl
          rw [knows, stored] at knowsChannel
          cases knowsChannel
        simp [notChat, notChannel]
    · have unlinked : Change.migration? a (.migration chat channel) = none := if_neg known
      simp only [unlinked, apply, migrate_of_unknown a known]
  | message m =>
    simp only [Change.migration?, links, migratedTo?, migratedFrom?, peer?, apply, peers_addMessage]
  | removal s i =>
    simp only [Change.migration?, links, migratedTo?, migratedFrom?, peer?, apply,
      peers_removeMessage]
  | peerNotice peer aspects => rfl
  | poll p => rfl

theorem peerNotices_apply (c : Change) :
    (a.apply c).peerNotices =
      { a.peerNotices with sent := a.peerNotices.sent ++ c.peerNews a } := by
  have nothing : a.peerNotices = { a.peerNotices with sent := a.peerNotices.sent ++ [] } := by
    rw [List.append_nil]
  cases c with
  | peer p =>
    rw [apply, addPeer, contains_peers, Change.peerNews]
    split
    · rfl
    · exact nothing
  | migration chat channel =>
    by_cases known : a.knows chat && a.knows channel
    · rw [apply, migrate, contains_peers, contains_peers, if_pos known, Change.peerNews,
        if_pos known]
      simp [notifyPeer, Feed.send]
    · rw [apply, migrate_of_unknown a known, Change.peerNews, if_neg known]
      exact nothing
  | peerNotice peer aspects => rfl
  | message m =>
    rw [apply, peerNotices_addMessage]
    exact nothing
  | removal s i =>
    rw [apply, peerNotices_removeMessage]
    exact nothing
  | poll p => exact nothing

theorem capacity_peerNotices_after (changes : List Change) :
    (after changes).peerNotices.capacity = 256 := by
  induction changes using List.reverseRecOn with
  | nil => rfl
  | append_singleton changes c ih =>
    rw [after_append_singleton, peerNotices_apply]
    exact ih

theorem since_apply {place : Nat} (inside : place ≤ a.peerNotices.place) (c : Change) :
    (a.apply c).peerNotices.since place = a.peerNotices.since place ++ c.peerNews a := by
  rw [peerNotices_apply]
  exact List.drop_append_of_le_length inside

theorem since_peerNotices_apply (c : Change) :
    (a.apply c).peerNotices.since a.peerNotices.place = c.peerNews a := by
  rw [since_apply a (Nat.le_refl _), Feed.since_place, List.nil_append]

end Account

end PeerPanel
