import PeerPanel.Proofs.Account.PeerRecords
import PeerPanel.Proofs.Account.Viewing

/-!
Whether those that follow the migrations of a peer learn of every change of its links.

A migration is published for both of its peers. A record that is put in the place of one with other
links is published as a new name at most, and this is the only change of links that goes unannounced
(`Account.relinks_silently_iff`). A subscriber that looks at the record whenever it is told
something has seen the present links if no such change was made:
`LinkWatch.links_announced_unless_overwritten`.
-/

set_option autoImplicit false
set_option relaxedAutoImplicit false

namespace PeerPanel

open Account (Change)

namespace Account

/-- Whether a change puts a record of a peer in place that has other links than the stored one. -/
def Change.overwritesLinks (a : Account) (id : PeerId) : Change → Bool
  | .peer p => p.id = id && p.links ≠ a.links id
  | _ => false

variable {a : Account} {id : PeerId} {c : Change}

/-- A change is announced as a migration of a peer. -/
def Change.Announces (a : Account) (id : PeerId) (c : Change) : Prop :=
  ∃ n ∈ (a.apply c).peerNotices.since a.peerNotices.place, n.peer = id ∧ n.aspects.migration = true

private theorem Change.announces_of_migration? {chat channel : PeerId}
    (linked : c.migration? a = some (chat, channel)) (about : id = chat ∨ id = channel) :
    c.Announces a id := by
  cases c with
  | migration chat' channel' =>
    simp only [migration?] at linked
    split at linked
    · next known =>
      cases linked
      rw [Announces, since_peerNotices_apply, peerNews, if_pos known]
      refine ⟨⟨id, .ofMigration⟩, ?_, rfl, rfl⟩
      rcases about with rfl | rfl <;> simp
    · cases linked
  | _ => cases linked

private theorem Change.not_announces_of_peer (a : Account) (id : PeerId) (p : Peer) :
    ¬ Change.Announces a id (.peer p) := by
  rintro ⟨n, sent, -, about⟩
  rw [since_peerNotices_apply, peerNews] at sent
  split at sent
  · rw [List.mem_singleton.mp sent] at about
    cases about
  · cases sent

/-- The links of a peer change without an announcement exactly when a record with other links is put
in place. -/
theorem relinks_silently_iff :
    (a.apply c).links id ≠ a.links id ∧ ¬ c.Announces a id ↔ c.overwritesLinks a id = true := by
  rw [links_apply]
  cases c with
  | peer p =>
    simp only [Change.not_announces_of_peer, not_false_eq_true, and_true, Change.overwritesLinks,
      Bool.and_eq_true, decide_eq_true_eq]
    by_cases own : id = p.id
    · simp [own]
    · simp [own, Ne.symm own]
  | migration chat channel =>
    simp only [Change.overwritesLinks, Bool.false_eq_true, iff_false, not_and, not_not]
    intro changed
    cases linked : Change.migration? a (.migration chat channel) with
    | none =>
      rw [linked] at changed
      exact absurd rfl changed
    | some pair =>
      refine Change.announces_of_migration? linked ?_
      by_contra neither
      obtain ⟨notChat, notChannel⟩ := not_or.mp neither
      rw [linked] at changed
      simp only [if_neg notChat, if_neg notChannel] at changed
      exact changed rfl
  | message m => simp [Change.migration?, Change.overwritesLinks]
  | removal s i => simp [Change.migration?, Change.overwritesLinks]
  | peerNotice who aspects => simp [Change.migration?, Change.overwritesLinks]
  | poll p => simp [Change.migration?, Change.overwritesLinks]

end Account

namespace PeerView

variable {v : PeerView} {a : Account}

private theorem poll_snd (inside : v.place ≤ a.peerNotices.place) :
    (v.poll a).2.peer = v.peer ∧ (v.poll a).2.aspects = v.aspects ∧
      (v.poll a).2.place ≤ a.peerNotices.place := by
  have polled := v.polled inside
  generalize v.poll a = result at polled ⊢
  cases polled with
  | first => exact ⟨rfl, rfl, inside⟩
  | missed => exact ⟨rfl, rfl, a.peerNotices.oldest_le_place⟩
  | next _ _ _ within => exact ⟨rfl, rfl, within⟩
  | nothing => exact ⟨rfl, rfl, Nat.le_refl _⟩

end PeerView

/-- A subscriber to a peer that looks at its record whenever it is told something, and what it has
seen there. -/
structure LinkWatch where
  account : Account
  view : PeerView
  seen : List (Option PeerId × Option PeerId) := []

namespace LinkWatch

open Viewing (Event)

def play (s : LinkWatch) : Event → LinkWatch
  | .change c => { s with account := s.account.apply c }
  | .poll =>
    match s.view.poll s.account with
    | (some _, view) => { s with view, seen := s.seen ++ [s.account.links view.peer] }
    | (none, view) => { s with view }

def run (s : LinkWatch) (events : List Event) : LinkWatch := events.foldl play s

/-- A subscriber to the migrations of a peer that has not looked yet. -/
def opened (a : Account) (id : PeerId) : LinkWatch :=
  { account := a, view := a.peerView id .ofMigration }

/-- A subscriber that has been told of every change of the links: it has yet to look, or has seen
the present ones. -/
structure Informed (id : PeerId) (s : LinkWatch) : Prop where
  peer : s.view.peer = id
  aspects : s.view.aspects = .ofMigration
  inside : s.view.place ≤ s.account.peerNotices.place
  fresh : s.view.Owes s.account ∨ s.seen.getLast? = some (s.account.links id)

variable {id : PeerId} {s : LinkWatch}

private theorem informed_opened (a : Account) (id : PeerId) : Informed id (opened a id) where
  peer := rfl
  aspects := rfl
  inside := Nat.le_refl _
  fresh := .inl (.inl rfl)

private theorem Informed.change (h : Informed id s) {c : Change}
    (announced : c.overwritesLinks s.account id = false) :
    Informed id { s with account := s.account.apply c } where
  peer := h.peer
  aspects := h.aspects
  inside := Nat.le_trans h.inside (s.account.place_peerNotices_apply c)
  fresh := by
    rcases h.fresh with owes | last
    · exact .inl (Account.owes_apply h.inside c owes)
    · by_cases same : (s.account.apply c).links id = s.account.links id
      · rw [same]
        exact .inr last
      · left
        have told : c.Announces s.account id := by
          by_contra silent
          rw [Account.relinks_silently_iff.mp ⟨same, silent⟩] at announced
          cases announced
        obtain ⟨n, sent, about, migration⟩ := told
        rw [Account.since_peerNotices_apply] at sent
        refine .inr (.inr ⟨n, ?_, ?_⟩)
        · rw [Account.since_apply _ h.inside]
          exact List.mem_append_right _ sent
        · simp [PeerView.concerns, about, h.peer, h.aspects, PeerAspects.meets,
            PeerAspects.ofMigration, migration]

private theorem Informed.poll (h : Informed id s) : Informed id (s.play .poll) := by
  obtain ⟨peer, aspects, inside⟩ := PeerView.poll_snd h.inside
  rcases polls : s.view.poll s.account with ⟨_ | n, view⟩
  · have last := h.fresh.resolve_left (PeerView.not_owes_of_poll_eq_none h.inside polls).2
    rw [polls] at peer aspects inside
    rw [play, polls]
    exact ⟨peer.trans h.peer, aspects.trans h.aspects, inside, .inr last⟩
  · rw [polls] at peer aspects inside
    rw [play, polls]
    refine ⟨peer.trans h.peer, aspects.trans h.aspects, inside, .inr ?_⟩
    rw [List.getLast?_concat, ← h.peer, ← peer]

private theorem Informed.run (h : Informed id s) {events : List Event}
    (announced : ∀ front c later, events = front ++ .change c :: later →
      c.overwritesLinks (s.run front).account id = false) : Informed id (s.run events) := by
  induction events generalizing s with
  | nil => exact h
  | cons e later ih =>
    have next : Informed id (s.play e) := by
      cases e with
      | change c => exact h.change (announced [] c later rfl)
      | poll => exact h.poll
    refine ih next fun front c rest split => ?_
    exact announced (e :: front) c rest (by rw [split]; rfl)

/-- A change of the links of a peer goes unannounced exactly when a record with other links is put
in the place of the stored one. While that does not happen, a subscriber to the migrations of the
peer that looks at its record whenever it is told something, and has nothing more to be told, has
seen the present links last. -/
theorem links_announced_unless_overwritten (earlier : List Change) (id : PeerId) :
    (∀ c, ((Account.after earlier).apply c).links id ≠ (Account.after earlier).links id ∧
        ¬ c.Announces (Account.after earlier) id ↔
      c.overwritesLinks (Account.after earlier) id = true) ∧
    ∀ events : List Event,
      (∀ front c later, events = front ++ .change c :: later →
        c.overwritesLinks ((opened (Account.after earlier) id).run front).account id = false) →
      let s := (opened (Account.after earlier) id).run events
      ∀ view, s.view.poll s.account = (none, view) →
        s.seen.getLast? = some (s.account.links id) := by
  refine ⟨fun c => Account.relinks_silently_iff, fun events announced => ?_⟩
  intro s view polls
  have informed : Informed id s := (informed_opened _ id).run announced
  exact informed.fresh.resolve_left (PeerView.not_owes_of_poll_eq_none informed.inside polls).2

def plainChat : Peer := { id := ⟨1⟩, kind := .chat, name := "Chat" }

def movedChat : Peer := { plainChat with migratedTo := some ⟨2⟩ }

/-- A chat is known to have no links, and then to have become a channel. -/
theorem migration_seen :
    let s := (opened (Account.after [.peer plainChat, .peer { plainChat with id := ⟨2⟩ }]) ⟨1⟩).run
      [.poll, .change (.migration ⟨1⟩ ⟨2⟩), .poll]
    s.seen.getLast? = some (some ⟨2⟩, none) := by
  refine (links_announced_unless_overwritten _ _).2 _ ?_ _ rfl
  intro front c later split
  match front with
  | [] => cases split
  | [_] =>
    cases split
    rfl
  | [_, _] => cases split
  | _ :: _ :: _ :: rest => simp at split

/-- A stored chat without links is replaced by a record that names the channel that it became. Its
links have changed, nothing but a new name is published, and a subscriber to its migrations that has
nothing more to be told has seen no link. -/
theorem overwritten_link_not_announced :
    let s := (opened (Account.after [.peer plainChat]) ⟨1⟩).run
      [.poll, .change (.peer movedChat), .poll]
    s.account.peerNotices.sent = [⟨⟨1⟩, .ofName⟩] ∧ (s.view.poll s.account).1 = none ∧
      s.account.links ⟨1⟩ = (some ⟨2⟩, none) ∧ s.seen = [(none, none)] := by
  decide

end LinkWatch

end PeerPanel
