import PeerPanel.Proofs.Account.MutualLinks

/-!
Links lead from chats to channels, and no further.

Where records are put in place without links and keep their kind, and only chats migrate, and only
into channels, a peer with a link onward is a chat, and the link leads to a channel
(`Account.LeadsToChannels`). Either half of a link may be lost when a record is replaced, and a
channel may have been left for another one; the invariant does not speak of the way back. It is
enough for the peer that an entry is opened for: this one leads nowhere, so the entry that is
opened for it is the same again (`default_of_present`).
-/

set_option autoImplicit false
set_option relaxedAutoImplicit false

namespace PeerPanel

private theorem Peer.isLinked_eq_false_iff {p : Peer} :
    p.isLinked = false ↔ p.links = (none, none) := by
  simp [isLinked, links]

namespace Account

def kind? (a : Account) (id : PeerId) : Option PeerKind := (a.peer? id).map (·.kind)

/-- Whether a change puts a record without links in place that has the kind of the one before, or
lets a chat become a channel, if it touches peers at all. -/
def Change.isSteady (a : Account) : Change → Bool
  | peer p => !p.isLinked && (a.kind? p.id).all (· = p.kind)
  | migration chat channel =>
    (a.kind? chat).all (· = .chat) && (a.kind? channel).all (· = .channel)
  | _ => true

/-- Whether a change may give a link to the record of a peer. -/
def Change.mayLink (id : PeerId) : Change → Bool
  | peer p => p.id = id && p.isLinked
  | migration chat channel => chat = id || channel = id
  | _ => false

/-- A peer with a link onward is a chat, and the link leads to a channel. -/
def LeadsToChannels (a : Account) : Prop :=
  ∀ chat channel, a.migratedTo? chat = some channel →
    a.kind? chat = some .chat ∧ a.kind? channel = some .channel

variable {a : Account} {c : Change} {id : PeerId}

private theorem kind?_apply (a : Account) (c : Change) (id : PeerId) :
    (a.apply c).kind? id =
      match c with
      | .peer p => if id = p.id then some p.kind else a.kind? id
      | _ => a.kind? id := by
  cases c with
  | peer p =>
    rw [kind?, apply, peer?_addPeer]
    by_cases h : id = p.id
    · simp [h]
    · simp [h, kind?]
  | migration chat channel =>
    by_cases known : a.knows chat && a.knows channel
    · rw [kind?, apply, peer?_migrate a id known, Option.map_map]
      rfl
    · rw [apply, migrate_of_unknown a known]
  | message m => rw [kind?, apply, peer?, peers_addMessage, ← peer?, ← kind?]
  | removal s i => rw [kind?, apply, peer?, peers_removeMessage, ← peer?, ← kind?]
  | peerNotice who aspects => rfl
  | poll p => rfl

private theorem kind?_apply_of_steady (steady : c.isSteady a = true) {kind : PeerKind}
    (known : a.kind? id = some kind) : (a.apply c).kind? id = some kind := by
  rw [kind?_apply]
  cases c with
  | peer p =>
    show (if id = p.id then some p.kind else a.kind? id) = some kind
    by_cases own : id = p.id
    · subst own
      rw [Change.isSteady, known, Bool.and_eq_true] at steady
      have same : kind = p.kind := by simpa using steady.2
      rw [if_pos rfl, same]
    · rw [if_neg own, known]
  | _ => exact known

private theorem kind?_of_knows (known : a.knows id = true) {kind : PeerKind}
    (is : (a.kind? id).all (· = kind) = true) : a.kind? id = some kind := by
  obtain ⟨p, stored⟩ := Option.isSome_iff_exists.mp known
  rw [kind?, stored] at is ⊢
  simpa using is

private theorem migratedTo?_of_apply {chat channel : PeerId} (steady : c.isSteady a = true)
    (link : (a.apply c).migratedTo? chat = some channel) :
    a.migratedTo? chat = some channel ∨
      a.kind? chat = some .chat ∧ a.kind? channel = some .channel := by
  have links := congrArg Prod.fst (a.links_apply chat c)
  rw [show ((a.apply c).links chat).1 = some channel from link] at links
  cases c with
  | peer p =>
    have now : some channel = (if chat = p.id then p.links else a.links chat).1 := links
    split at now
    · rw [Change.isSteady, Bool.and_eq_true, Bool.not_eq_true',
        Peer.isLinked_eq_false_iff] at steady
      rw [steady.1] at now
      cases now
    · exact .inl now.symm
  | migration old new =>
    by_cases known : a.knows old && a.knows new
    · have made : Change.migration? a (.migration old new) = some (old, new) := if_pos known
      simp only [made] at links
      split at links
      · next own =>
        cases links
        rw [Change.isSteady, Bool.and_eq_true] at steady
        rw [Bool.and_eq_true] at known
        subst own
        exact .inr ⟨kind?_of_knows known.1 steady.1, kind?_of_knows known.2 steady.2⟩
      · exact .inl links.symm
    · have idle : Change.migration? a (.migration old new) = none := if_neg known
      simp only [idle] at links
      exact .inl links.symm
  | _ => exact .inl links.symm

theorem LeadsToChannels.apply (leads : a.LeadsToChannels) (steady : c.isSteady a = true) :
    (a.apply c).LeadsToChannels := by
  intro chat channel link
  have kinds : a.kind? chat = some .chat ∧ a.kind? channel = some .channel := by
    rcases migratedTo?_of_apply steady link with before | kinds
    · exact leads chat channel before
    · exact kinds
  exact kinds.imp (kind?_apply_of_steady steady) (kind?_apply_of_steady steady)

theorem leadsToChannels_empty : ({} : Account).LeadsToChannels := by
  intro chat channel link
  cases link

private theorem LeadsToChannels.migratedTo?_present (leads : a.LeadsToChannels) (id : PeerId) :
    a.migratedTo? ((a.migratedTo? id).getD id) = none := by
  cases onward : a.migratedTo? id with
  | none => exact onward
  | some channel =>
    rw [Option.getD_some]
    cases further : a.migratedTo? channel with
    | none => rfl
    | some next =>
      have isChannel := (leads id channel onward).2
      have isChat := (leads channel next further).1
      rw [isChannel] at isChat
      cases isChat

/-- The entry that is opened for a peer is one of the peer that it has become, and has the earlier
chat of that one with it unless that one is a user. -/
theorem subject_default {s : Section} {e : Entry} (opens : Entry.default a id s = .ok e) :
    e.subject = .peer ((a.migratedTo? id).getD id) ∧
      (e.migrated = a.migratedFrom? ((a.migratedTo? id).getD id) ∨
        a.kind? ((a.migratedTo? id).getD id) = some .user) := by
  cases s with
  | commonGroups =>
    unfold Entry.default at opens
    rw [← migratedTo?] at opens
    cases stored : a.peer? ((a.migratedTo? id).getD id) with
    | none =>
      simp only [stored] at opens
      cases opens
    | some record =>
      simp only [stored] at opens
      split at opens
      · next user =>
        cases opens
        exact ⟨rfl, .inr (by rw [kind?, stored, Option.map_some, user])⟩
      · cases opens
  | profile =>
    cases opens
    exact ⟨rfl, .inl rfl⟩
  | media kind =>
    cases opens
    exact ⟨rfl, .inl rfl⟩
  | members =>
    cases opens
    exact ⟨rfl, .inl rfl⟩
  | _ => cases opens

theorem LeadsToChannels.default_of_present (leads : a.LeadsToChannels) {s : Section} {e : Entry}
    (opens : Entry.default a id s = .ok e) :
    ∃ peer, e.subject = .peer peer ∧ Entry.default a peer s = .ok e := by
  refine ⟨(a.migratedTo? id).getD id, (subject_default opens).1, ?_⟩
  rw [← opens]
  exact default_congr (by rw [leads.migratedTo?_present id, Option.getD_none]) s

theorem LeadsToChannels.links_of_default (leads : a.LeadsToChannels) {s : Section} {e : Entry}
    {peer : PeerId} (opens : Entry.default a id s = .ok e) (subject : e.subject = .peer peer)
    (alone : e.migrated = none) (noUser : a.kind? peer ≠ some .user) :
    a.links peer = (none, none) := by
  obtain ⟨present, earlier⟩ := subject_default opens
  obtain rfl : (a.migratedTo? id).getD id = peer := Subject.peer.inj (present.symm.trans subject)
  have back := (earlier.resolve_right noUser).symm.trans alone
  rw [links, leads.migratedTo?_present id, back]

theorem links_apply_of_not_mayLink (unlinked : a.links id = (none, none))
    (apart : c.mayLink id = false) : (a.apply c).links id = (none, none) := by
  rw [links_apply]
  cases c with
  | peer p =>
    by_cases own : id = p.id
    · have plain : p.isLinked = false := by simpa [Change.mayLink, own] using apart
      rw [← Peer.isLinked_eq_false_iff.mp plain]
      exact if_pos own
    · exact (if_neg own).trans unlinked
  | migration chat channel =>
    obtain ⟨notChat, notChannel⟩ : chat ≠ id ∧ channel ≠ id := by
      simpa [Change.mayLink] using apart
    simp only [Change.migration?]
    split
    · next made =>
      split at made
      · cases made
        rw [if_neg (Ne.symm notChat), if_neg (Ne.symm notChannel)]
        exact unlinked
      · cases made
    · exact unlinked
  | _ => exact unlinked

theorem any_isLinked_eq_false (unlinked : a.links id = (none, none)) :
    (a.peer? id).any Peer.isLinked = false := by
  cases stored : a.peer? id with
  | none => rfl
  | some p =>
    rw [links, migratedTo?, migratedFrom?, stored] at unlinked
    exact Peer.isLinked_eq_false_iff.mpr unlinked

end Account

end PeerPanel
