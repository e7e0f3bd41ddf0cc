import PeerPanel.Entry
import PeerPanel.Proofs.Account.PeerRecords

/-!
When the links of chats and channels come in pairs.

A migration writes a link into each of two records, over what stood there. So where no record comes
with links of its own, a chat leads to the channel of its last migration, and a channel leads back
to the chat of its last one (`Account.migratedTo?_iff`, `Account.migratedFrom?_iff`). These two
agree throughout exactly as long as no chat becomes a second channel and no channel takes in a
second chat: `Account.mutual_iff_one_to_one`.
-/

set_option autoImplicit false
set_option relaxedAutoImplicit false

namespace PeerPanel

section

variable {α : Type} {q : α → Prop} {l : List α} {x y : α}

/-- The last item of a list that has a property. -/
def IsLast (q : α → Prop) (l : List α) (x : α) : Prop :=
  q x ∧ ∃ early late, l = early ++ x :: late ∧ ∀ y ∈ late, ¬ q y

private theorem isLast_nil : ¬ IsLast q [] x := by
  rintro ⟨-, early, late, split, -⟩
  simp at split

private theorem isLast_append_singleton [DecidablePred q] :
    IsLast q (l ++ [y]) x ↔ if q y then x = y else IsLast q l x := by
  constructor
  · rintro ⟨hx, early, late, split, none⟩
    rcases late.eq_nil_or_concat with rfl | ⟨late, z, rfl⟩
    · obtain ⟨-, rfl⟩ := List.append_singleton_inj.mp split
      rw [if_pos hx]
    · rw [List.concat_eq_append] at split none
      rw [← List.cons_append, ← List.append_assoc] at split
      obtain ⟨rfl, rfl⟩ := List.append_singleton_inj.mp split
      rw [if_neg (none y (by simp))]
      exact ⟨hx, early, late, rfl, fun z hz => none z (List.mem_append_left _ hz)⟩
  · split
    · next hy =>
      rintro rfl
      exact ⟨hy, l, [], rfl, by simp⟩
    · next hy =>
      rintro ⟨hx, early, late, rfl, none⟩
      refine ⟨hx, early, late ++ [y], by simp, fun z hz => ?_⟩
      rcases List.mem_append.mp hz with hz | hz
      · exact none z hz
      · rwa [List.mem_singleton.mp hz]

private theorem IsLast.mem (h : IsLast q l x) : x ∈ l := by
  obtain ⟨-, early, late, rfl, -⟩ := h
  simp

private theorem exists_isLast [DecidablePred q] (some : ∃ x ∈ l, q x) : ∃ x, IsLast q l x := by
  induction l using List.reverseRecOn with
  | nil => simp at some
  | append_singleton l y ih =>
    simp only [isLast_append_singleton]
    by_cases hy : q y
    · exact ⟨y, by rw [if_pos hy]⟩
    · obtain ⟨x, hx, hq⟩ := some
      simp only [if_neg hy]
      rcases List.mem_append.mp hx with hx | hx
      · exact ih ⟨x, hx, hq⟩
      · rw [List.mem_singleton.mp hx] at hq
        exact absurd hq hy

end

namespace Account

def Change.added? : Change → Option PeerId
  | .peer p => some p.id
  | _ => none

/-- Whether a change puts a record in place that has links of its own. -/
def Change.bringsLinks : Change → Bool
  | .peer p => p.isLinked
  | _ => false

/-- The migrations that some changes of an account make, each a chat and a channel. -/
def migrationsFrom (a : Account) : List Change → List (PeerId × PeerId)
  | [] => []
  | c :: later => (c.migration? a).toList ++ migrationsFrom (a.apply c) later

def migrations (changes : List Change) : List (PeerId × PeerId) := migrationsFrom {} changes

/-- The records that are put in place have no links, and each peer is added once. -/
structure Unlinked (changes : List Change) : Prop where
  plain : ∀ c ∈ changes, c.bringsLinks = false
  once : (changes.filterMap Change.added?).Nodup

/-- A peer leads to a channel exactly if the channel leads back to it. -/
def Mutual (a : Account) : Prop :=
  ∀ chat channel, a.migratedTo? chat = some channel ↔ a.migratedFrom? channel = some chat

/-- No chat becomes two channels, and no channel takes in two chats. -/
def OneToOne (done : List (PeerId × PeerId)) : Prop :=
  ∀ m ∈ done, ∀ n ∈ done, m.1 = n.1 ↔ m.2 = n.2

instance (done : List (PeerId × PeerId)) : Decidable (OneToOne done) :=
  inferInstanceAs (Decidable (∀ m ∈ done, ∀ n ∈ done, m.1 = n.1 ↔ m.2 = n.2))

variable {changes : List Change} {c : Change} {chat channel id : PeerId}

private theorem migrationsFrom_append_singleton (a : Account) (changes : List Change) (c : Change) :
    a.migrationsFrom (changes ++ [c]) =
      a.migrationsFrom changes ++ (c.migration? (changes.foldl apply a)).toList := by
  induction changes generalizing a with
  | nil => simp [migrationsFrom]
  | cons d later ih =>
    rw [List.cons_append, migrationsFrom, ih, migrationsFrom, List.append_assoc]
    rfl

private theorem migrations_append_singleton (changes : List Change) (c : Change) :
    migrations (changes ++ [c]) =
      migrations changes ++ (c.migration? (after changes)).toList :=
  migrationsFrom_append_singleton {} changes c

private theorem Unlinked.init (h : Unlinked (changes ++ [c])) : Unlinked changes where
  plain d mem := h.plain d (List.mem_append_left _ mem)
  once := by
    have once := h.once
    rw [List.filterMap_append] at once
    exact (List.nodup_append.mp once).1

private theorem knows_apply (a : Account) (c : Change) (id : PeerId) :
    (a.apply c).knows id = (decide (c.added? = some id) || a.knows id) := by
  cases c with
  | peer p =>
    rw [knows, apply, peer?_addPeer]
    by_cases h : id = p.id
    · simp [h, Change.added?]
    · simp [h, Change.added?, knows, Ne.symm h]
  | migration chat channel =>
    by_cases known : a.knows chat && a.knows channel
    · simp [knows, apply, peer?_migrate a id known, Change.added?]
    · simp [apply, migrate_of_unknown a known, Change.added?]
  | message m => simp [knows, peer?, apply, peers_addMessage, Change.added?]
  | removal s i => simp [knows, peer?, apply, peers_removeMessage, Change.added?]
  | peerNotice who aspects => rfl
  | poll p => rfl

private theorem mem_added_of_knows (known : (after changes).knows id) :
    id ∈ changes.filterMap Change.added? := by
  induction changes using List.reverseRecOn with
  | nil => cases known
  | append_singleton changes c ih =>
    rw [after_append_singleton, knows_apply, Bool.or_eq_true, decide_eq_true_eq] at known
    rw [List.filterMap_append, List.mem_append]
    rcases known with added | known
    · exact .inr (List.mem_filterMap.mpr ⟨c, by simp, added⟩)
    · exact .inl (ih known)

private theorem Unlinked.unknown (h : Unlinked (changes ++ [c])) (added : c.added? = some id) :
    (after changes).knows id = false := by
  by_contra known
  have once := h.once
  rw [List.filterMap_append] at once
  refine (List.nodup_append.mp once).2.2 id
    (mem_added_of_knows ((Bool.not_eq_false _).mp known)) id ?_ rfl
  exact List.mem_filterMap.mpr ⟨c, by simp, added⟩

private theorem Unlinked.links_apply (h : Unlinked (changes ++ [c])) (id : PeerId) :
    ((after changes).apply c).links id =
      match c.migration? (after changes) with
      | some (chat, channel) =>
        (if id = chat then some channel else (after changes).migratedTo? id,
          if id = channel then some chat else (after changes).migratedFrom? id)
      | none => (after changes).links id := by
  rw [Account.links_apply]
  cases c with
  | peer p =>
    show (if id = p.id then p.links else (after changes).links id) = (after changes).links id
    by_cases own : id = p.id
    · have vacant : (after changes).peer? id = none := by
        have unknown := h.unknown (own ▸ rfl : (Change.peer p).added? = some id)
        exact Option.not_isSome_iff_eq_none.mp (by rw [← knows, unknown]; exact Bool.false_ne_true)
      have plain := h.plain (.peer p) (by simp)
      simp only [Change.bringsLinks, Peer.isLinked, Bool.or_eq_false_iff,
        Option.isSome_eq_false_iff, Option.isNone_iff_eq_none] at plain
      rw [if_pos own, Peer.links, plain.1, plain.2, links, migratedTo?, migratedFrom?, vacant]
      rfl
    · rw [if_neg own]
  | _ => rfl

private theorem Unlinked.migratedTo?_apply (h : Unlinked (changes ++ [c])) (id : PeerId) :
    ((after changes).apply c).migratedTo? id =
      match c.migration? (after changes) with
      | some (chat, channel) => if id = chat then some channel else (after changes).migratedTo? id
      | none => (after changes).migratedTo? id := by
  have both := congrArg Prod.fst (h.links_apply id)
  cases made : c.migration? (after changes) <;> rw [made] at both <;> exact both

private theorem Unlinked.migratedFrom?_apply (h : Unlinked (changes ++ [c])) (id : PeerId) :
    ((after changes).apply c).migratedFrom? id =
      match c.migration? (after changes) with
      | some (chat, channel) =>
        if id = channel then some chat else (after changes).migratedFrom? id
      | none => (after changes).migratedFrom? id := by
  have both := congrArg Prod.snd (h.links_apply id)
  cases made : c.migration? (after changes) <;> rw [made] at both <;> exact both

theorem migratedTo?_iff (h : Unlinked changes) :
    (after changes).migratedTo? chat = some channel ↔
      IsLast (fun m => m.1 = chat) (migrations changes) (chat, channel) := by
  induction changes using List.reverseRecOn with
  | nil => exact iff_of_false (by rintro ⟨⟩) isLast_nil
  | append_singleton changes c ih =>
    rw [after_append_singleton, h.migratedTo?_apply, migrations_append_singleton]
    cases made : c.migration? (after changes) with
    | none => simpa using ih h.init
    | some m =>
      rw [Option.toList_some, isLast_append_singleton]
      by_cases own : chat = m.1
      · simp only [if_pos own, if_pos own.symm, Prod.ext_iff, Option.some.injEq]
        exact ⟨fun e => ⟨own, e.symm⟩, fun e => e.2.symm⟩
      · simp only [if_neg own, if_neg (Ne.symm own)]
        exact ih h.init

theorem migratedFrom?_iff (h : Unlinked changes) :
    (after changes).migratedFrom? channel = some chat ↔
      IsLast (fun m => m.2 = channel) (migrations changes) (chat, channel) := by
  induction changes using List.reverseRecOn with
  | nil => exact iff_of_false (by rintro ⟨⟩) isLast_nil
  | append_singleton changes c ih =>
    rw [after_append_singleton, h.migratedFrom?_apply, migrations_append_singleton]
    cases made : c.migration? (after changes) with
    | none => simpa using ih h.init
    | some m =>
      rw [Option.toList_some, isLast_append_singleton]
      by_cases own : channel = m.2
      · simp only [if_pos own, if_pos own.symm, Prod.ext_iff, Option.some.injEq]
        exact ⟨fun e => ⟨e.symm, own⟩, fun e => e.1.symm⟩
      · simp only [if_neg own, if_neg (Ne.symm own)]
        exact ih h.init

private theorem OneToOne.isLast_fst {done : List (PeerId × PeerId)} (h : OneToOne done) :
    IsLast (fun m => m.1 = chat) done (chat, channel) ↔ (chat, channel) ∈ done := by
  refine ⟨IsLast.mem, fun mem => ?_⟩
  obtain ⟨⟨chat', channel'⟩, last⟩ := exists_isLast (q := fun m => m.1 = chat) ⟨_, mem, rfl⟩
  obtain rfl : chat' = chat := last.1
  obtain rfl : channel' = channel := (h _ last.mem _ mem).mp rfl
  exact last

private theorem OneToOne.isLast_snd {done : List (PeerId × PeerId)} (h : OneToOne done) :
    IsLast (fun m => m.2 = channel) done (chat, channel) ↔ (chat, channel) ∈ done := by
  refine ⟨IsLast.mem, fun mem => ?_⟩
  obtain ⟨⟨chat', channel'⟩, last⟩ := exists_isLast (q := fun m => m.2 = channel) ⟨_, mem, rfl⟩
  obtain rfl : channel' = channel := last.1
  obtain rfl : chat' = chat := (h _ last.mem _ mem).mpr rfl
  exact last

private theorem OneToOne.mutual (h : Unlinked changes) (paired : OneToOne (migrations changes)) :
    (after changes).Mutual := by
  intro chat channel
  rw [migratedTo?_iff h, migratedFrom?_iff h, paired.isLast_fst, paired.isLast_snd]

private theorem OneToOne.append_singleton (h : Unlinked (changes ++ [c]))
    (paired : OneToOne (migrations changes)) (still : (after (changes ++ [c])).Mutual) :
    OneToOne (migrations (changes ++ [c])) := by
  rw [migrations_append_singleton]
  rw [after_append_singleton] at still
  cases made : c.migration? (after changes) with
  | none => rwa [Option.toList_none, List.append_nil]
  | some new =>
    have toNew : ((after changes).apply c).migratedTo? new.1 = some new.2 := by
      rw [h.migratedTo?_apply, made]
      exact if_pos rfl
    have fromNew : ((after changes).apply c).migratedFrom? new.2 = some new.1 :=
      (still _ _).mp toNew
    have old : ∀ m ∈ migrations changes, m.1 = new.1 ↔ m.2 = new.2 := by
      intro m mem
      have goesTo := (migratedTo?_iff h.init).mpr (paired.isLast_fst.mpr mem)
      have comesFrom := (migratedFrom?_iff h.init).mpr (paired.isLast_snd.mpr mem)
      constructor
      · -- the channel of the old migration still leads back to the chat
        intro same
        have back : ((after changes).apply c).migratedFrom? m.2 = some new.1 := by
          rw [h.migratedFrom?_apply, made]
          by_cases own : m.2 = new.2
          · exact if_pos own
          · exact (if_neg own).trans (same ▸ comesFrom)
        have again := (still _ _).mpr back
        rw [toNew] at again
        exact (Option.some.inj again).symm
      · intro same
        have onward : ((after changes).apply c).migratedTo? m.1 = some new.2 := by
          rw [h.migratedTo?_apply, made]
          by_cases own : m.1 = new.1
          · exact if_pos own
          · exact (if_neg own).trans (same ▸ goesTo)
        have again := (still _ _).mp onward
        rw [fromNew] at again
        exact (Option.some.inj again).symm
    intro m hm n hn
    rw [Option.toList_some, List.mem_append, List.mem_singleton] at hm hn
    rcases hm with hm | rfl <;> rcases hn with hn | rfl
    · exact paired m hm n hn
    · exact old m hm
    · rw [eq_comm, @eq_comm _ m.2]
      exact old n hn
    · exact iff_of_true rfl rfl

private theorem default_profile (a : Account) (id : PeerId) :
    Entry.default a id .profile =
      .ok (.profile ((a.migratedTo? id).getD id) (a.migratedFrom? ((a.migratedTo? id).getD id))) :=
  rfl

theorem default_congr {a : Account} {p q : PeerId}
    (same : (a.migratedTo? p).getD p = (a.migratedTo? q).getD q) (s : Section) :
    Entry.default a p s = Entry.default a q s := by
  rw [migratedTo?, migratedTo?] at same
  simp only [Entry.default, same]

/-- Where peers are added once and without links, a chat leads to the channel of its last migration
and a channel back to the chat of its last one. The links are mutual at all times exactly if no chat
becomes two channels and no channel takes in two chats. Then a chat is opened with the channel that
it became and itself as the pair of peers, and so is the channel, in every section, exactly if it
has not become another one. -/
theorem mutual_iff_one_to_one (changes : List Change) (unlinked : Unlinked changes) :
    (∀ chat channel, (after changes).migratedTo? chat = some channel ↔
      IsLast (fun m => m.1 = chat) (migrations changes) (chat, channel)) ∧
    (∀ chat channel, (after changes).migratedFrom? channel = some chat ↔
      IsLast (fun m => m.2 = channel) (migrations changes) (chat, channel)) ∧
    ((∀ front, front <+: changes → (after front).Mutual) ↔ OneToOne (migrations changes)) ∧
    (OneToOne (migrations changes) → ∀ chat channel, (chat, channel) ∈ migrations changes →
      Entry.default (after changes) chat .profile = .ok (.profile channel (some chat)) ∧
      ((∀ s, Entry.default (after changes) chat s = Entry.default (after changes) channel s) ↔
        ∀ m ∈ migrations changes, m.1 = channel → m.2 = channel)) := by
  refine ⟨fun _ _ => migratedTo?_iff unlinked, fun _ _ => migratedFrom?_iff unlinked, ⟨?_, ?_⟩, ?_⟩
  · intro always
    induction changes using List.reverseRecOn with
    | nil =>
      intro m hm
      cases hm
    | append_singleton changes c ih =>
      have paired := ih unlinked.init fun front isPrefix =>
        always front (isPrefix.trans (List.prefix_append _ _))
      exact paired.append_singleton unlinked (always _ List.prefix_rfl)
  · rintro paired front ⟨late, rfl⟩
    induction late using List.reverseRecOn with
    | nil =>
      rw [List.append_nil] at unlinked paired
      exact paired.mutual unlinked
    | append_singleton late c ih =>
      rw [← List.append_assoc] at unlinked paired
      refine ih unlinked.init fun m hm n hn => ?_
      rw [migrations_append_singleton] at paired
      exact paired m (List.mem_append_left _ hm) n (List.mem_append_left _ hn)
  · intro paired chat channel made
    have leads := (migratedTo?_iff unlinked).mpr (paired.isLast_fst.mpr made)
    have back := (paired.mutual unlinked chat channel).mp leads
    have pair :
        Entry.default (after changes) chat .profile = .ok (.profile channel (some chat)) := by
      rw [default_profile, leads, Option.getD_some, back]
    refine ⟨pair, fun alike => ?_, fun stays => default_congr ?_⟩
    · rintro ⟨_, next⟩ onward rfl
      have further := (migratedTo?_iff unlinked).mpr (paired.isLast_fst.mpr onward)
      have same := alike .profile
      rw [pair, default_profile, further, Option.getD_some] at same
      exact (Subject.peer.inj (congrArg Entry.subject (Except.ok.inj same))).symm
    · rw [leads, Option.getD_some]
      cases onward : (after changes).migratedTo? channel with
      | none => rfl
      | some next => exact (stays _ ((migratedTo?_iff unlinked).mp onward).mem rfl).symm

def conversation (number : Nat) (kind : PeerKind) : Change :=
  .peer { id := ⟨number⟩, kind, name := "" }

/-- A chat that becomes a channel, of which it is told twice. -/
def movedOnce : List Change :=
  [conversation 1 .chat, conversation 2 .channel, .migration ⟨1⟩ ⟨2⟩, .migration ⟨1⟩ ⟨2⟩]

/-- A chat and the channel that it became are opened alike. -/
theorem moved_chat_opened_as_channel :
    Unlinked movedOnce ∧ OneToOne (migrations movedOnce) ∧
      Entry.default (after movedOnce) ⟨1⟩ .members =
        Entry.default (after movedOnce) ⟨2⟩ .members := by
  have unlinked : Unlinked movedOnce := ⟨by decide, by decide⟩
  obtain ⟨-, -, -, opened⟩ := mutual_iff_one_to_one movedOnce unlinked
  obtain ⟨-, alike⟩ := opened (by decide) ⟨1⟩ ⟨2⟩ (by decide)
  exact ⟨unlinked, by decide, alike.mpr (by decide) .members⟩

/-- A chat that becomes one channel, and then another one. -/
def movedTwice : List Change :=
  [conversation 1 .chat, conversation 2 .channel, conversation 3 .channel, .migration ⟨1⟩ ⟨2⟩,
    .migration ⟨1⟩ ⟨3⟩]

/-- The first channel leads back to the chat, which does not lead to it any more, and the two are
opened with different pairs of peers. -/
theorem first_channel_left_behind :
    Unlinked movedTwice ∧ (after movedTwice).migratedFrom? ⟨2⟩ = some ⟨1⟩ ∧
      (after movedTwice).migratedTo? ⟨1⟩ = some ⟨3⟩ ∧ ¬ (after movedTwice).Mutual ∧
      Entry.default (after movedTwice) ⟨1⟩ .profile = .ok (.profile ⟨3⟩ (some ⟨1⟩)) ∧
      Entry.default (after movedTwice) ⟨2⟩ .profile = .ok (.profile ⟨2⟩ (some ⟨1⟩)) := by
  have back : (after movedTwice).migratedFrom? ⟨2⟩ = some ⟨1⟩ := by decide
  have onward : (after movedTwice).migratedTo? ⟨1⟩ = some ⟨3⟩ := by decide
  refine ⟨⟨by decide, by decide⟩, back, onward, fun links => ?_, rfl, rfl⟩
  have first := (links ⟨1⟩ ⟨2⟩).mpr back
  rw [onward] at first
  cases first

end Account

end PeerPanel
