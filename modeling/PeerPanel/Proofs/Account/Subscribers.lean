import PeerPanel.Proofs.Account.PeerRecords
import PeerPanel.Proofs.Account.Viewing

/-!
What those that follow a peer are told.

A subscription yields the present state and then, in their order, the notices that concern it of all
that was published since it was opened. Where it has fallen too far behind, it yields the present
state once more, for all that it has lost (`PeerView.Yields`). While it loses nothing, a poll moves
one notice from what is still to come to what was yielded
(`Subscriber.Follows.yielded_pending_run`). Main statement: `Subscriber.matching_notices_in_order`.
-/

set_option autoImplicit false
set_option relaxedAutoImplicit false

namespace PeerPanel

open Account (Change)
open Viewing (Event)

/-- What a subscription yields for the notices that it leaves behind. -/
inductive PeerView.Yields (v : PeerView) : List PeerNotice → List PeerNotice → Prop
  | begun : Yields v [] [v.present]
  | met {left yielded : List PeerNotice} (passed : List PeerNotice) : Yields v left yielded →
      Yields v (left ++ passed) (yielded ++ passed.filter v.concerns)
  /-- The present state stands for what was lost. -/
  | lost {left yielded missed : List PeerNotice} : missed ≠ [] → Yields v left yielded →
      Yields v (left ++ missed) (yielded ++ [v.present])

private theorem PeerView.Yields.head {v : PeerView} {left yielded : List PeerNotice}
    (h : v.Yields left yielded) : yielded.head? = some v.present := by
  induction h with
  | begun => rfl
  | met passed _ ih => rw [List.head?_append, ih, Option.some_or]
  | lost _ _ ih => rw [List.head?_append, ih, Option.some_or]

/-- An account, a subscription to it, and what the subscription has yielded. -/
structure Subscriber where
  account : Account
  view : PeerView
  yielded : List PeerNotice := []

namespace Subscriber

def play (s : Subscriber) : Event → Subscriber
  | .change c => { s with account := s.account.apply c }
  | .poll =>
    { s with
      view := (s.view.poll s.account).2
      yielded := s.yielded ++ (s.view.poll s.account).1.toList }

def run (s : Subscriber) (events : List Event) : Subscriber := events.foldl play s

/-- A subscription that has just been opened. -/
def opened (a : Account) (peer : PeerId) (aspects : PeerAspects) : Subscriber :=
  { account := a, view := a.peerView peer aspects }

/-- The notices that the subscription has not met. -/
def unread (s : Subscriber) : List PeerNotice := s.account.peerNotices.since s.view.place

/-- A subscription that has come along from the state in which it was opened. -/
structure Follows (opened : PeerView) (s : Subscriber) : Prop where
  view : s.view = { opened with started := s.view.started, place := s.view.place }
  forward : opened.place ≤ s.view.place
  inside : s.view.place ≤ s.account.peerNotices.place
  unstarted : s.view.started = false → s.yielded = [] ∧ s.view.place = opened.place
  started : s.view.started = true → ∃ left,
    s.account.peerNotices.since opened.place = left ++ s.unread ∧ opened.Yields left s.yielded

/-- What is still to come while nothing is lost. -/
def pending (s : Subscriber) : List PeerNotice :=
  (if s.view.started then [] else [s.view.present]) ++ s.unread.filter s.view.concerns

variable {opened : PeerView} {s : Subscriber}

private theorem pending_opened (a : Account) (peer : PeerId) (aspects : PeerAspects) :
    (Subscriber.opened a peer aspects).pending = [{ peer, aspects }] := by
  have none : (Subscriber.opened a peer aspects).unread = [] := Feed.since_place a.peerNotices
  rw [pending, none]
  rfl

private theorem follows_opened (a : Account) (peer : PeerId) (aspects : PeerAspects) :
    Follows (a.peerView peer aspects) (Subscriber.opened a peer aspects) where
  view := rfl
  forward := Nat.le_refl _
  inside := Nat.le_refl _
  unstarted _ := ⟨rfl, rfl⟩
  started := nofun

namespace Follows

private theorem concerns_eq (h : Follows opened s) : s.view.concerns = opened.concerns := by
  rw [h.view]
  rfl

private theorem present_eq (h : Follows opened s) : s.view.present = opened.present := by
  rw [h.view]
  rfl

private theorem change (h : Follows opened s) (c : Change) :
    Follows opened (s.play (.change c)) where
  view := h.view
  forward := h.forward
  inside := Nat.le_trans h.inside (s.account.place_peerNotices_apply c)
  unstarted := h.unstarted
  started begun := by
    obtain ⟨left, sent, yields⟩ := h.started begun
    refine ⟨left, ?_, yields⟩
    show (s.account.apply c).peerNotices.since opened.place =
      left ++ (s.account.apply c).peerNotices.since s.view.place
    rw [Account.since_apply _ (Nat.le_trans h.forward h.inside), Account.since_apply _ h.inside,
      sent, List.append_assoc]
    rfl

private theorem goOn (h : Follows opened s) {place : Nat} {passed news : List PeerNotice}
    (started : s.view.started = true) (forward : s.view.place ≤ place)
    (inside : place ≤ s.account.peerNotices.place)
    (split : s.unread = passed ++ s.account.peerNotices.since place)
    (further : ∀ left, opened.Yields left s.yielded →
      opened.Yields (left ++ passed) (s.yielded ++ news)) :
    Follows opened
      { s with view := { s.view with place }, yielded := s.yielded ++ news } := by
  obtain ⟨left, sent, yields⟩ := h.started started
  refine ⟨by rw [h.view], Nat.le_trans h.forward forward, inside, ?_, fun _ => ?_⟩
  · intro unstarted
    rw [started] at unstarted
    cases unstarted
  · refine ⟨left ++ passed, ?_, further left yields⟩
    rw [sent, split, List.append_assoc]
    rfl

private theorem poll (h : Follows opened s) : Follows opened (s.play .poll) := by
  have polled := PeerView.polled h.inside
  unfold play
  generalize s.view.poll s.account = result at polled ⊢
  cases polled with
  | first unstarted =>
    obtain ⟨none, fresh⟩ := h.unstarted unstarted
    refine ⟨by rw [h.view], h.forward, h.inside, nofun, fun _ => ⟨[], ?_, ?_⟩⟩
    · rw [← fresh]
      rfl
    · rw [none, h.present_eq]
      exact .begun
  | missed started behind =>
    -- it goes on with the oldest notice that is held, and loses some before that
    have within := s.account.peerNotices.oldest_le_place
    have split := @Feed.since_upTo _ s.account.peerNotices _ _ (Nat.le_of_lt behind)
    have some :
        (s.account.peerNotices.upTo s.account.peerNotices.oldest).since s.view.place ≠ [] := by
      rw [ne_eq, ← List.length_eq_zero_iff, Feed.length_since, Feed.place_upTo within]
      omega
    rw [h.present_eq]
    exact h.goOn started (Nat.le_of_lt behind) within split fun left yields => .lost some yields
  | @next passed n place started held further within split refused concerns =>
    rw [h.concerns_eq] at refused concerns
    have taken : (passed ++ [n]).filter opened.concerns = [n] := by
      rw [List.filter_append, PeerView.filter_concerns_eq_nil refused,
        List.filter_cons_of_pos concerns]
      rfl
    have through : s.unread = passed ++ [n] ++ s.account.peerNotices.since place := by
      rw [List.append_assoc]
      exact split
    refine h.goOn started (Nat.le_of_lt further) within through fun left yields => ?_
    have read := yields.met (passed ++ [n])
    rwa [taken] at read
  | nothing started held refused =>
    rw [h.concerns_eq] at refused
    have none : s.unread.filter opened.concerns = [] := PeerView.filter_concerns_eq_nil refused
    have through : s.unread =
        s.unread ++ s.account.peerNotices.since s.account.peerNotices.place := by
      rw [Feed.since_place, List.append_nil]
    refine h.goOn started h.inside (Nat.le_refl _) through fun left yields => ?_
    have read := yields.met s.unread
    rwa [none] at read

private theorem run (h : Follows opened s) (events : List Event) :
    Follows opened (s.run events) := by
  induction events generalizing s with
  | nil => exact h
  | cons e later ih =>
    cases e with
    | change c => exact ih (h.change c)
    | poll => exact ih h.poll

end Follows

/-- What some events publish about peers. -/
def news (a : Account) : List Event → List PeerNotice
  | [] => []
  | .change c :: later => c.peerNews a ++ news (a.apply c) later
  | .poll :: later => news a later

private theorem since_run (events : List Event) {place : Nat}
    (inside : place ≤ s.account.peerNotices.place) :
    (s.run events).account.peerNotices.since place =
      s.account.peerNotices.since place ++ news s.account events := by
  induction events generalizing s with
  | nil => exact (List.append_nil _).symm
  | cons e later ih =>
    cases e with
    | change c =>
      have rest := @ih (s.play (.change c))
        (Nat.le_trans inside (s.account.place_peerNotices_apply c))
      rw [news, ← List.append_assoc, ← Account.since_apply _ inside]
      exact rest
    | poll => exact @ih (s.play .poll) inside

private theorem capacity_run (events : List Event) :
    (s.run events).account.peerNotices.capacity = s.account.peerNotices.capacity := by
  induction events generalizing s with
  | nil => rfl
  | cons e later ih =>
    cases e with
    | change c =>
      refine (@ih (s.play (.change c))).trans ?_
      show (s.account.apply c).peerNotices.capacity = _
      rw [Account.peerNotices_apply]
    | poll => exact @ih (s.play .poll)

private theorem Follows.yielded_pending_poll (h : Follows opened s)
    (held : s.account.peerNotices.oldest ≤ s.view.place) :
    (s.play .poll).yielded ++ (s.play .poll).pending = s.yielded ++ s.pending := by
  have polled := PeerView.polled h.inside
  unfold play pending unread
  generalize s.view.poll s.account = result at polled ⊢
  cases polled with
  | first unstarted =>
    simp only [unstarted, Option.toList_some, if_true, Bool.false_eq_true, if_false,
      List.append_assoc, List.nil_append]
    rfl
  | missed _ behind => omega
  | next started _ _ _ split refused concerns =>
    simp only [started, if_true, List.nil_append, split, List.filter_append,
      PeerView.filter_concerns_eq_nil refused, List.filter_cons_of_pos concerns, List.append_assoc]
    rfl
  | nothing started _ refused =>
    simp only [started, if_true, Feed.since_place, PeerView.filter_concerns_eq_nil refused,
      List.filter_nil, Option.toList_none, List.append_nil]

private theorem Follows.pending_change (h : Follows opened s) (c : Change) :
    (s.play (.change c)).pending =
      s.pending ++ (c.peerNews s.account).filter opened.concerns := by
  have unread : (s.play (.change c)).unread = s.unread ++ c.peerNews s.account :=
    Account.since_apply _ h.inside c
  rw [pending, pending, unread, List.filter_append, ← h.concerns_eq, ← List.append_assoc]
  rfl

/-- While nothing is lost, what was yielded and what is still to come grow by what is published that
concerns the subscription. -/
theorem Follows.yielded_pending_run (h : Follows opened s) {later : List Event}
    (few : ∀ front, front <+: later →
      (s.run front).unread.length ≤ s.account.peerNotices.capacity) :
    (s.run later).yielded ++ (s.run later).pending =
      s.yielded ++ s.pending ++ (news s.account later).filter opened.concerns := by
  induction later generalizing s with
  | nil => exact (List.append_nil _).symm
  | cons e later ih =>
    have held : s.account.peerNotices.oldest ≤ s.view.place :=
      Feed.oldest_le_iff.mpr (few [] List.nil_prefix)
    have further : ∀ front, front <+: later →
        ((s.play e).run front).unread.length ≤ (s.play e).account.peerNotices.capacity := by
      intro front isPrefix
      have same : (s.play e).account.peerNotices.capacity = s.account.peerNotices.capacity :=
        s.capacity_run [e]
      rw [same]
      exact few (e :: front) (List.cons_prefix_cons.mpr ⟨rfl, isPrefix⟩)
    cases e with
    | change c =>
      refine (ih (h.change c) further).trans ?_
      rw [h.pending_change, news, List.filter_append]
      simp only [List.append_assoc]
      rfl
    | poll =>
      refine (ih h.poll further).trans ?_
      rw [h.yielded_pending_poll held]
      rfl

private theorem started_run (events : List Event) :
    (s.run events).view.started = true ↔ s.view.started = true ∨ .poll ∈ events := by
  induction events generalizing s with
  | nil => simp [run]
  | cons e later ih =>
    cases e with
    | change c =>
      refine (@ih (s.play (.change c))).trans ?_
      simp [play]
    | poll =>
      refine (@ih (s.play .poll)).trans ?_
      simp [play, s.view.started_poll]

private theorem Follows.pending_eq (h : Follows opened s) (started : s.view.started = true) :
    s.pending = s.unread.filter opened.concerns := by
  rw [pending, started, if_pos rfl, List.nil_append, h.concerns_eq]

private theorem Follows.yielded_run (h : Follows opened s) (started : s.view.started = true)
    {later : List Event}
    (few : ∀ front, front <+: later →
      (s.run front).unread.length ≤ s.account.peerNotices.capacity) :
    (s.run later).yielded ++ (s.run later).unread.filter opened.concerns =
      s.yielded ++ (s.unread ++ news s.account later).filter opened.concerns := by
  have still : (s.run later).view.started = true := (s.started_run later).mpr (.inl started)
  have conserved := h.yielded_pending_run few
  rwa [(h.run later).pending_eq still, h.pending_eq started, List.append_assoc,
    ← List.filter_append] at conserved

private theorem Follows.play_poll_of_behind (h : Follows opened s) (started : s.view.started = true)
    (behind : s.account.peerNotices.capacity < s.unread.length) :
    (s.play .poll).yielded = s.yielded ++ [opened.present] ∧
      (s.play .poll).unread =
        s.unread.drop (s.unread.length - s.account.peerNotices.capacity) := by
  have lost : s.view.place < s.account.peerNotices.oldest :=
    Nat.lt_of_not_le fun held => Nat.not_le.mpr behind (Feed.oldest_le_iff.mp held)
  have polled := PeerView.polled h.inside
  unfold unread at behind ⊢
  unfold play
  generalize s.view.poll s.account = result at polled ⊢
  cases polled with
  | missed =>
    have count : s.view.place + ((s.account.peerNotices.since s.view.place).length -
        s.account.peerNotices.capacity) = s.account.peerNotices.oldest := by
      rw [Feed.length_since] at behind ⊢
      simp only [Feed.oldest, Feed.place] at *
      omega
    refine ⟨by rw [h.present_eq]; rfl, ?_⟩
    rw [Feed.drop_since, count]
  | first unstarted =>
    rw [started] at unstarted
    cases unstarted
  | next _ held => omega
  | nothing _ held => omega

private theorem Follows.play_poll_of_unread (h : Follows opened s) {n : PeerNotice}
    (unread : n ∈ s.unread)
    (concerns : opened.concerns n = true) : ∃ m, (s.play .poll).yielded = s.yielded ++ [m] := by
  have polled := PeerView.polled h.inside
  unfold play
  generalize s.view.poll s.account = result at polled ⊢
  cases polled with
  | first => exact ⟨_, rfl⟩
  | missed => exact ⟨_, rfl⟩
  | next => exact ⟨_, rfl⟩
  | nothing _ _ refused =>
    rw [h.concerns_eq] at refused
    rw [refused n unread] at concerns
    cases concerns

/-- Whatever is published between the polls of a subscription, it yields the present state first.
What it has left behind is the beginning of what was published since it was opened, and for that it
has yielded the notices that concern it, in their order, and the present state once more wherever it
has lost some. It loses none while no more than 256 are unread. When more are, the next poll yields
the present state and leaves the latest 256 to come, and from there on as from any other state it
yields all that concerns it until more than 256 are unread again. When an unread notice concerns it,
the next poll yields something. -/
theorem matching_notices_in_order (earlier : List Change) (peer : PeerId) (aspects : PeerAspects)
    (events : List Event) :
    let start := Subscriber.opened (Account.after earlier) peer aspects
    let s := start.run events
    let sent := news (Account.after earlier) events
    let present : PeerNotice := { peer, aspects }
    let wanted (n : PeerNotice) : Bool := n.peer = peer ∧ n.aspects.meets aspects
    (.poll ∉ events → s.yielded = [] ∧ s.unread = sent) ∧
    (.poll ∈ events → s.yielded.head? = some present ∧
      (∃ left, sent = left ++ s.unread ∧ start.view.Yields left s.yielded ∧
        ((∀ front, front <+: events → (start.run front).unread.length ≤ 256) →
          s.yielded = present :: left.filter wanted)) ∧
      (256 < s.unread.length →
        (s.play .poll).yielded = s.yielded ++ [present] ∧
          (s.play .poll).unread = s.unread.drop (s.unread.length - 256)) ∧
      ∀ later, (∀ front, front <+: later → (s.run front).unread.length ≤ 256) →
        (s.run later).yielded ++ (s.run later).unread.filter wanted =
          s.yielded ++ (s.unread ++ news s.account later).filter wanted) ∧
    ((∃ n ∈ s.unread, wanted n = true) → ∃ n, (s.play .poll).yielded = s.yielded ++ [n]) := by
  intro start s sent present wanted
  have begun : Follows start.view start := follows_opened (Account.after earlier) peer aspects
  have follows : Follows start.view s := begun.run events
  have held (front : List Event) : (start.run front).account.peerNotices.capacity = 256 :=
    (start.capacity_run front).trans (Account.capacity_peerNotices_after earlier)
  have published : s.account.peerNotices.since start.view.place = sent := by
    have since := start.since_run events (Nat.le_refl _)
    rw [Feed.since_place, List.nil_append] at since
    exact since
  refine ⟨fun none => ?_, fun polled => ?_, fun ⟨n, unread, wants⟩ =>
    follows.play_poll_of_unread unread wants⟩
  · have unstarted : s.view.started = false := by
      rw [Bool.eq_false_iff, ne_eq, started_run]
      rintro (begun | some)
      · cases begun
      · exact none some
    obtain ⟨nothing, fresh⟩ := follows.unstarted unstarted
    refine ⟨nothing, ?_⟩
    rw [unread, fresh]
    exact published
  · have started : s.view.started = true := (start.started_run events).mpr (.inr polled)
    obtain ⟨left, split, yields⟩ := follows.started started
    rw [published] at split
    refine ⟨yields.head, ⟨left, split, yields, fun few => ?_⟩, fun behind => ?_,
      fun later few => ?_⟩
    · have capacity : start.account.peerNotices.capacity = 256 := held []
      have conserved : s.yielded ++ s.pending = start.yielded ++ start.pending ++
          sent.filter start.view.concerns := begun.yielded_pending_run (by rwa [capacity])
      rw [follows.pending_eq started, pending_opened] at conserved
      have all : s.yielded ++ s.unread.filter wanted =
          present :: left.filter wanted ++ s.unread.filter wanted := by
        rw [List.cons_append, ← List.filter_append, ← split]
        exact conserved
      exact List.append_cancel_right all
    · rw [← held events] at behind ⊢
      exact follows.play_poll_of_behind started behind
    · exact follows.yielded_run started (by rwa [held events])

end Subscriber

end PeerPanel
