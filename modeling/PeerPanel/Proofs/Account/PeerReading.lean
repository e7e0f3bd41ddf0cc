import PeerPanel.Account.LiveView
import PeerPanel.Proofs.Account.History
import PeerPanel.Proofs.Signal.Feed

/-!
What a subscription to a peer finds when it reads.

A subscription has something to yield (`PeerView.Owes`) when it has not begun, when it has missed
notices, or when one that it has not met concerns it. Reading yields something in that case, and
goes to the end. A subscription that stops on the way has yielded something or still owes it
(`PeerView.readOn`), and a change of the account takes nothing back (`Account.owes_apply`). As long
as nothing is missed, what is yielded can be counted (`PeerView.length_add_unread`).
-/

set_option autoImplicit false
set_option relaxedAutoImplicit false

namespace PeerPanel

namespace PeerView

def concerns (v : PeerView) (n : PeerNotice) : Bool := n.peer = v.peer ∧ n.aspects.meets v.aspects

/-- Reading to the end yields something. -/
def Owes (v : PeerView) (a : Account) : Prop :=
  v.started = false ∨ v.place < a.peerNotices.oldest ∨
    ∃ n ∈ a.peerNotices.since v.place, v.concerns n = true

/-- What a subscription yields that is asked a number of times, until it has nothing more, and what
is left of it. -/
def readUpTo (v : PeerView) (a : Account) : Nat → List PeerNotice × PeerView
  | 0 => ([], v)
  | n + 1 =>
    match v.poll a with
    | (some x, v) =>
      let (xs, v) := v.readUpTo a n
      (x :: xs, v)
    | (none, v) => ([], v)

def readAll (v : PeerView) (a : Account) : List PeerNotice × PeerView :=
  v.readUpTo a (v.readyBound a)

theorem takeReady_ask (v : PeerView) (a : Account) (n : Nat) :
    takeReady (ask a) n v = ((v.readUpTo a n).1, some (v.readUpTo a n).2) := by
  induction n generalizing v with
  | zero => rfl
  | succ n ih =>
    rw [takeReady, readUpTo, ask]
    rcases v.poll a with ⟨_ | x, rest⟩
    · rfl
    · simp only [ih]

variable {v v' : PeerView} {a : Account}

private theorem isSome_accepts_missed (v : PeerView) (count : Nat) :
    (v.accepts (.missed count)).isSome := rfl

private theorem accepts_notice_eq_none_iff {n : PeerNotice} :
    v.accepts (.notice n) = none ↔ v.concerns n = false := by
  unfold accepts concerns
  by_cases h : n.peer = v.peer ∧ n.aspects.meets v.aspects <;> simp [h]

theorem poll_cases (v : PeerView) (a : Account) :
    (v.started = false ∧ v.poll a = (some v.present, { v with started := true })) ∨
      (v.started = true ∧ v.poll a =
        ((a.peerNotices.next? v.accepts v.place).1,
          { v with place := (a.peerNotices.next? v.accepts v.place).2 })) := by
  unfold poll
  cases v.started with
  | false => exact .inl ⟨rfl, rfl⟩
  | true => exact .inr ⟨rfl, rfl⟩

theorem started_poll (v : PeerView) (a : Account) : (v.poll a).2.started = true := by
  rcases v.poll_cases a with ⟨-, polls⟩ | ⟨started, polls⟩
  · rw [polls]
  · rw [polls]
    exact started

private theorem accepts_notice_eq_some_iff {n m : PeerNotice} :
    v.accepts (.notice n) = some m ↔ v.concerns n = true ∧ n = m := by
  unfold accepts concerns
  by_cases h : n.peer = v.peer ∧ n.aspects.meets v.aspects <;> simp [h]

theorem filter_concerns_eq_nil {l : List PeerNotice} (refused : ∀ n ∈ l, v.concerns n = false) :
    l.filter v.concerns = [] :=
  List.filter_eq_nil_iff.mpr fun n mem => by simp [refused n mem]

/-- What a poll yields, and the subscription after it. -/
inductive Polled (v : PeerView) (a : Account) : Option PeerNotice × PeerView → Prop
  | first : v.started = false → Polled v a (some v.present, { v with started := true })
  /-- The present state stands for all that was missed. -/
  | missed : v.started = true → v.place < a.peerNotices.oldest →
      Polled v a (some v.present, { v with place := a.peerNotices.oldest })
  | next {passed : List PeerNotice} {n : PeerNotice} {place : Nat} : v.started = true →
      a.peerNotices.oldest ≤ v.place → v.place < place → place ≤ a.peerNotices.place →
      a.peerNotices.since v.place = passed ++ n :: a.peerNotices.since place →
      (∀ m ∈ passed, v.concerns m = false) → v.concerns n = true →
      Polled v a (some n, { v with place })
  | nothing : v.started = true → a.peerNotices.oldest ≤ v.place →
      (∀ n ∈ a.peerNotices.since v.place, v.concerns n = false) →
      Polled v a (none, { v with place := a.peerNotices.place })

theorem polled (inside : v.place ≤ a.peerNotices.place) : v.Polled a (v.poll a) := by
  rcases v.poll_cases a with ⟨unstarted, polls⟩ | ⟨started, polls⟩
  · rw [polls]
    exact .first unstarted
  · rw [polls]
    rcases met : a.peerNotices.next? v.accepts v.place with ⟨_ | n, place⟩
    · obtain ⟨held, rfl, refused⟩ := Feed.next?_eq_none v.isSome_accepts_missed inside met
      exact .nothing started held fun n unread => accepts_notice_eq_none_iff.mp (refused n unread)
    · obtain ⟨further, within, ⟨behind, rfl, taken⟩ | ⟨held, passed, m, split, refused, taken⟩⟩ :=
        Feed.next?_eq_some v.isSome_accepts_missed inside met
      · cases taken
        exact .missed started behind
      · obtain ⟨concerns, rfl⟩ := accepts_notice_eq_some_iff.mp taken
        exact .next started held further within split
          (fun m passed => accepts_notice_eq_none_iff.mp (refused m passed)) concerns

private theorem not_owes_iff :
    ¬ v.Owes a ↔ v.started = true ∧ a.peerNotices.oldest ≤ v.place ∧
      ∀ n ∈ a.peerNotices.since v.place, v.concerns n = false := by
  simp [Owes]

theorem not_owes_of_poll_eq_none (inside : v.place ≤ a.peerNotices.place)
    (polls : v.poll a = (none, v')) :
    v' = { v with started := true, place := a.peerNotices.place } ∧ ¬ v.Owes a := by
  have polled := v.polled inside
  rw [polls] at polled
  cases polled with
  | nothing started held refused =>
    exact ⟨by rw [← started], not_owes_iff.mpr ⟨started, held, refused⟩⟩

/-- The polls after which a subscription has nothing more to yield. -/
def remaining (v : PeerView) (a : Account) : Nat :=
  a.peerNotices.place - v.place + (if v.started then 1 else 2)

private theorem remaining_lt_of_poll_eq_some {n : PeerNotice}
    (inside : v.place ≤ a.peerNotices.place)
    (polls : v.poll a = (some n, v')) :
    v'.remaining a < v.remaining a ∧ v'.place ≤ a.peerNotices.place ∧
      ∀ place, { v' with started := true, place } = { v with started := true, place } := by
  have polled := v.polled inside
  rw [polls] at polled
  cases polled with
  | first unstarted => exact ⟨by simp [remaining, unstarted], inside, fun _ => rfl⟩
  | missed started behind =>
    have within := a.peerNotices.oldest_le_place
    exact ⟨by simp only [remaining, started, if_true]; omega, within, fun _ => rfl⟩
  | next started _ further within =>
    exact ⟨by simp only [remaining, started, if_true]; omega, within, fun _ => rfl⟩

private theorem readUpTo_eq {xs : List PeerNotice} {fuel : Nat}
    (inside : v.place ≤ a.peerNotices.place)
    (enough : v.remaining a ≤ fuel) (reads : v.readUpTo a fuel = (xs, v')) :
    v' = { v with started := true, place := a.peerNotices.place } ∧ (xs = [] → ¬ v.Owes a) := by
  induction fuel generalizing v xs v' with
  | zero =>
    unfold remaining at enough
    split at enough <;> omega
  | succ fuel ih =>
    rw [readUpTo] at reads
    rcases polls : v.poll a with ⟨_ | n, w⟩
    · rw [polls] at reads
      cases reads
      obtain ⟨final, nothing⟩ := not_owes_of_poll_eq_none inside polls
      exact ⟨final, fun _ => nothing⟩
    · rw [polls] at reads
      obtain ⟨fewer, within, same⟩ := remaining_lt_of_poll_eq_some inside polls
      rcases rest : w.readUpTo a fuel with ⟨ys, u⟩
      simp only [rest, Prod.mk.injEq] at reads
      obtain ⟨rfl, rfl⟩ := reads
      obtain ⟨final, -⟩ := ih within (by omega) rest
      exact ⟨final.trans (same _), by simp⟩

private theorem remaining_le (v : PeerView) (a : Account) : v.remaining a ≤ v.readyBound a := by
  unfold remaining readyBound
  split <;> omega

private theorem readAll_eq {xs : List PeerNotice} (inside : v.place ≤ a.peerNotices.place)
    (reads : v.readAll a = (xs, v')) :
    v' = { v with started := true, place := a.peerNotices.place } ∧ (xs = [] → ¬ v.Owes a) :=
  readUpTo_eq inside (v.remaining_le a) reads

/-- What a subscription that reads as far as it gets at one go has read, and what is left. -/
structure ReadOn (v : PeerView) (a : Account) (xs : List PeerNotice) (v' : PeerView) : Prop where
  peer : v'.peer = v.peer
  aspects : v'.aspects = v.aspects
  inside : v'.place ≤ a.peerNotices.place
  owes : xs = [] → v.Owes a → v'.Owes a
  finished : v.pause? a = none → v'.hasNews a = false

theorem pause?_eq_some {b : Account} (h : v.pause? a = some b) :
    v.place ≤ b.peerNotices.place ∧ b.peerNotices.place ≤ a.peerNotices.place ∧
      b.peerNotices.oldest = a.peerNotices.oldest ∧ b.peers = a.peers ∧
      ∀ n ∈ a.peerNotices.since v.place,
        n ∈ b.peerNotices.since v.place ∨ n ∈ a.peerNotices.since b.peerNotices.place := by
  obtain ⟨feed, pauses, rfl⟩ := Option.map_eq_some_iff.mp h
  have stops : a.peerNotices.stop v.place ≤ a.peerNotices.place := by
    by_contra beyond
    rw [Feed.pause?, if_neg beyond] at pauses
    cases pauses
  rw [Feed.pause?, if_pos stops] at pauses
  cases pauses
  have before := a.peerNotices.place_le_stop v.place
  rw [Feed.place_upTo stops]
  exact ⟨before, stops, Feed.oldest_upTo (a.peerNotices.oldest_le_stop v.place) stops, rfl,
    fun n => Feed.mem_since_upTo_or before⟩

theorem readOn (inside : v.place ≤ a.peerNotices.place) {xs : List PeerNotice}
    (reads : v.readAll ((v.pause? a).getD a) = (xs, v')) : v.ReadOn a xs v' := by
  cases paused : v.pause? a with
  | none =>
    rw [paused, Option.getD_none] at reads
    obtain ⟨rfl, empty⟩ := readAll_eq inside reads
    refine ⟨rfl, rfl, Nat.le_refl _, fun none owes => absurd owes (empty none), fun _ => ?_⟩
    simp [hasNews, Feed.hasNews, Feed.place]
  | some b =>
    rw [paused, Option.getD_some] at reads
    obtain ⟨before, stops, oldest, -, met⟩ := pause?_eq_some paused
    obtain ⟨rfl, empty⟩ := readAll_eq before reads
    refine ⟨rfl, rfl, stops, fun none owes => ?_, fun never => absurd (never.symm.trans paused) ?_⟩
    · have spent := empty none
      rcases owes with unstarted | missed | ⟨n, unread, concerns⟩
      · exact absurd (.inl unstarted) spent
      · rw [← oldest] at missed
        exact absurd (.inr (.inl missed)) spent
      · rcases met n unread with read | later
        · exact absurd (.inr (.inr ⟨n, read, concerns⟩)) spent
        · exact .inr (.inr ⟨n, later, concerns⟩)
    · simp

/-- How many of the notices that a subscription has not met concern it. -/
def unread (v : PeerView) (a : Account) : Nat := (a.peerNotices.since v.place).countP v.concerns

theorem unread_of_sent {b : Account} {news : List PeerNotice}
    (inside : v.place ≤ a.peerNotices.place)
    (sent : b.peerNotices = { a.peerNotices with sent := a.peerNotices.sent ++ news }) :
    v.unread b = v.unread a + news.countP v.concerns := by
  rw [unread, sent, Feed.since, List.drop_append_of_le_length inside, List.countP_append]
  rfl

private theorem unread_of_poll_eq_some {n : PeerNotice} (inside : v.place ≤ a.peerNotices.place)
    (held : a.peerNotices.oldest ≤ v.place) (polls : v.poll a = (some n, v')) :
    a.peerNotices.oldest ≤ v'.place ∧
      v'.unread a + (if v'.started then 0 else 1) + 1 =
        v.unread a + (if v.started then 0 else 1) := by
  have polled := v.polled inside
  rw [polls] at polled
  cases polled with
  | first unstarted =>
    refine ⟨held, ?_⟩
    rw [unstarted]
    rfl
  | missed _ behind => omega
  | @next _ _ place started _ further _ split refused concerns =>
    refine ⟨by simp only; omega, ?_⟩
    have passed := List.countP_eq_zero.mpr fun m mem => Bool.eq_false_iff.mp (refused m mem)
    have left : v.unread a = PeerView.unread { v with place } a + 1 := by
      rw [unread, split, List.countP_append, passed, List.countP_cons_of_pos concerns, Nat.zero_add]
      rfl
    rw [left, started]
    rfl

private theorem length_readUpTo {xs : List PeerNotice} {fuel : Nat}
    (inside : v.place ≤ a.peerNotices.place) (held : a.peerNotices.oldest ≤ v.place)
    (enough : v.remaining a ≤ fuel) (reads : v.readUpTo a fuel = (xs, v')) :
    xs.length = v.unread a + (if v.started then 0 else 1) := by
  induction fuel generalizing v xs v' with
  | zero =>
    unfold remaining at enough
    split at enough <;> omega
  | succ fuel ih =>
    rw [readUpTo] at reads
    rcases polls : v.poll a with ⟨_ | n, w⟩
    · rw [polls] at reads
      cases reads
      obtain ⟨started, -, refused⟩ := not_owes_iff.mp (not_owes_of_poll_eq_none inside polls).2
      have nothing : v.unread a = 0 :=
        List.countP_eq_zero.mpr fun m mem => Bool.eq_false_iff.mp (refused m mem)
      rw [nothing, started]
      rfl
    · rw [polls] at reads
      obtain ⟨fewer, within, -⟩ := remaining_lt_of_poll_eq_some inside polls
      obtain ⟨still, count⟩ := unread_of_poll_eq_some inside held polls
      rcases rest : w.readUpTo a fuel with ⟨ys, u⟩
      simp only [rest, Prod.mk.injEq] at reads
      obtain ⟨rfl, rfl⟩ := reads
      rw [List.length_cons, ih within still (by omega) rest, count]

private theorem since_of_pause? {b : Account} (h : v.pause? a = some b) :
    a.peerNotices.since v.place =
      b.peerNotices.since v.place ++ a.peerNotices.since b.peerNotices.place := by
  obtain ⟨-, stops, -⟩ := pause?_eq_some h
  obtain ⟨feed, pauses, rfl⟩ := Option.map_eq_some_iff.mp h
  rw [Feed.pause?] at pauses
  split at pauses
  · next inside =>
    cases pauses
    rw [Feed.place_upTo inside]
    exact Feed.since_upTo (a.peerNotices.place_le_stop v.place)
  · cases pauses

/-- What a subscription yields that reads as far as it gets at one go, and what it leaves, is what
concerned it before, and the present state if it has not begun. -/
theorem length_add_unread (inside : v.place ≤ a.peerNotices.place)
    (held : a.peerNotices.oldest ≤ v.place) {xs : List PeerNotice}
    (reads : v.readAll ((v.pause? a).getD a) = (xs, v')) :
    v'.started = true ∧ v'.unread a ≤ v.unread a ∧
      xs.length + v'.unread a = v.unread a + (if v.started then 0 else 1) := by
  cases paused : v.pause? a with
  | none =>
    rw [paused, Option.getD_none] at reads
    obtain ⟨rfl, -⟩ := readAll_eq inside reads
    have spent :
        PeerView.unread { v with started := true, place := a.peerNotices.place } a = 0 := by
      rw [unread, Feed.since_place, List.countP_nil]
    refine ⟨rfl, by rw [spent]; exact Nat.zero_le _, ?_⟩
    rw [length_readUpTo inside held (v.remaining_le a) reads, spent, Nat.add_zero]
  | some b =>
    rw [paused, Option.getD_some] at reads
    obtain ⟨before, -, oldest, -⟩ := pause?_eq_some paused
    obtain ⟨rfl, -⟩ := readAll_eq before reads
    have parts : v.unread a =
        v.unread b + (a.peerNotices.since b.peerNotices.place).countP v.concerns := by
      rw [unread, since_of_pause? paused, List.countP_append]
      rfl
    refine ⟨rfl, by rw [parts]; exact Nat.le_add_left _ _, ?_⟩
    rw [length_readUpTo before (by rw [oldest]; exact held) (v.remaining_le b) reads, parts,
      Nat.add_right_comm]
    rfl

end PeerView

namespace Account

open PeerView

@[simp] theorem peerNotices_setTimeline (a : Account) (s : Bool) (t : Timeline) :
    (a.setTimeline s t).peerNotices = a.peerNotices := by
  cases s <;> rfl

@[simp] theorem peerNotices_takeOut (a : Account) (s : Bool) (id : FullId) :
    (a.takeOut s id).2.peerNotices = a.peerNotices := by
  unfold takeOut
  split
  · rw [strike, peerNotices_setTimeline, peerNotices_setTimeline]
  · rfl

theorem peerNotices_addMessage (a : Account) (m : Message) :
    (a.addMessage m).peerNotices = a.peerNotices := by
  simp only [addMessage, notifyMedia, peerNotices_setTimeline, peerNotices_takeOut]

theorem peerNotices_removeMessage (a : Account) (s : Bool) (id : FullId) :
    (a.removeMessage s id).2.peerNotices = a.peerNotices := by
  have same := a.peerNotices_takeOut s id
  rw [removeMessage]
  generalize a.takeOut s id = taken at same
  obtain ⟨_ | m, cleared⟩ := taken
  · exact same
  · exact same

private theorem migrate_cases (a : Account) (chat channel : PeerId) :
    ((a.migrate chat channel).1 = false ∧ (a.migrate chat channel).2 = a) ∨
      ((a.migrate chat channel).1 = true ∧ (a.migrate chat channel).2.peerNotices =
        (a.peerNotices.send ⟨chat, .ofMigration⟩).send ⟨channel, .ofMigration⟩) := by
  unfold migrate
  split
  · exact .inr ⟨rfl, rfl⟩
  · exact .inl ⟨rfl, rfl⟩

theorem exists_sent_apply (a : Account) (c : Change) :
    ∃ news, (a.apply c).peerNotices =
      { a.peerNotices with sent := a.peerNotices.sent ++ news } := by
  have nothing : ∃ news, a.peerNotices =
      { a.peerNotices with sent := a.peerNotices.sent ++ news } := ⟨[], by rw [List.append_nil]⟩
  cases c with
  | peer p =>
    rw [apply, addPeer]
    split
    · exact ⟨[⟨p.id, .ofName⟩], rfl⟩
    · exact nothing
  | migration chat channel =>
    rw [apply]
    rcases a.migrate_cases chat channel with ⟨-, same⟩ | ⟨-, sent⟩
    · rw [same]
      exact nothing
    · refine ⟨[⟨chat, .ofMigration⟩, ⟨channel, .ofMigration⟩], ?_⟩
      simp [sent, Feed.send]
  | peerNotice peer aspects => exact ⟨[⟨peer, aspects⟩], rfl⟩
  | message m =>
    rw [apply, peerNotices_addMessage]
    exact nothing
  | removal s id =>
    rw [apply, peerNotices_removeMessage]
    exact nothing
  | poll p => exact nothing

variable {v : PeerView} {a : Account}

theorem place_peerNotices_apply (a : Account) (c : Change) :
    a.peerNotices.place ≤ (a.apply c).peerNotices.place := by
  obtain ⟨news, sent⟩ := a.exists_sent_apply c
  simp [sent, Feed.place]

theorem owes_apply (inside : v.place ≤ a.peerNotices.place) (c : Change) (owes : v.Owes a) :
    v.Owes (a.apply c) := by
  obtain ⟨news, sent⟩ := a.exists_sent_apply c
  rcases owes with unstarted | missed | ⟨n, unread, concerns⟩
  · exact .inl unstarted
  · right
    left
    simp only [sent, Feed.oldest, List.length_append] at missed ⊢
    omega
  · refine .inr (.inr ⟨n, ?_, concerns⟩)
    rw [sent, Feed.since, List.drop_append_of_le_length inside]
    exact List.mem_append_left _ unread

theorem owes_migrate {chat channel : PeerId} (inside : v.place ≤ a.peerNotices.place)
    (watches : v.aspects = .ofMigration) (about : v.peer = chat ∨ v.peer = channel)
    (done : (a.migrate chat channel).1 = true) : v.Owes (a.migrate chat channel).2 := by
  rcases a.migrate_cases chat channel with ⟨refused, -⟩ | ⟨-, sent⟩
  · rw [refused] at done
    cases done
  · have further : v.place ≤ (a.peerNotices.send ⟨chat, .ofMigration⟩).place := by
      rw [Feed.place_send]
      exact Nat.le_succ_of_le inside
    refine .inr (.inr ⟨⟨v.peer, .ofMigration⟩, ?_, ?_⟩)
    · rw [sent, Feed.since_send further, Feed.since_send inside]
      rcases about with same | same <;> simp [same]
    · simp [concerns, watches, PeerAspects.meets, PeerAspects.ofMigration]

end Account

end PeerPanel
