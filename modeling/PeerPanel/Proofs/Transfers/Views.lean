import PeerPanel.Proofs.Signal.Feed
import PeerPanel.Proofs.Transfers.Calls

/-!
Views of the transfers, over time.

A view yields what it shows of the list as it is at the moment of a poll, sorted by the time of the
start without any change of order among those of one time (`Shows`). Every notice is accepted by it,
and so
is the word that some were missed. So it has nothing to yield only when all has been read, and then
its last list is the present one; and while it misses nothing, it yields one list for itself and
one for every accepted call (`Follows`).
-/

set_option autoImplicit false
set_option relaxedAutoImplicit false

namespace PeerPanel.Transfers

/-- A list is another one, brought into the order of the starts; transfers of one time are in the
order in which they were. -/
structure SortedFrom (list sorted : List Transfer) : Prop where
  perm : sorted.Perm list
  ascending : sorted.Pairwise fun x y => x.started ≤ y.started
  stable : ∀ time, sorted.filter (·.started = time) = list.filter (·.started = time)

/-- The transfers by the time of their start. -/
def byStart (t : Transfers) : List Transfer :=
  t.list.mergeSort fun x y => x.started ≤ y.started

private theorem sortedFrom_byStart (t : Transfers) : SortedFrom t.list t.byStart := by
  have trans : ∀ x y z : Transfer, decide (x.started ≤ y.started) = true →
      decide (y.started ≤ z.started) = true → decide (x.started ≤ z.started) = true := by
    intro x y z
    simpa using Int.le_trans
  have total : ∀ x y : Transfer,
      (decide (x.started ≤ y.started) || decide (y.started ≤ x.started)) = true := by
    intro x y
    simpa using Int.le_total x.started y.started
  have perm : t.byStart.Perm t.list := List.mergeSort_perm ..
  have ascending : t.byStart.Pairwise fun x y => x.started ≤ y.started :=
    (List.pairwise_mergeSort trans total t.list).imp fun h => by simpa using h
  refine ⟨perm, ascending, fun time => ?_⟩
  have level : (t.list.filter (·.started = time)).Pairwise
      fun x y => decide (x.started ≤ y.started) = true := by
    refine List.pairwise_of_forall_mem_list fun x hx y hy => ?_
    have ofX : x.started = time := by simpa using (List.mem_filter.mp hx).2
    have ofY : y.started = time := by simpa using (List.mem_filter.mp hy).2
    rw [ofX, ofY]
    simp
  -- transfers of one time are in order already, so they are a sublist of the sorted list
  have kept : (t.list.filter (·.started = time)).Sublist (t.byStart.filter (·.started = time)) := by
    have inside : (t.list.filter (·.started = time)).Sublist t.byStart :=
      List.sublist_mergeSort trans total level List.filter_sublist
    simpa using inside.filter (·.started = time)
  exact (kept.eq_of_length (perm.filter _).length_eq.symm).symm

/-- What is shown is a list in the order of the starts, without what is not to be seen of it. -/
def Shows (list : List Transfer) (shown : List TransferEntry) : Prop :=
  ∃ sorted, SortedFrom list sorted ∧ shown = sorted.map Transfer.entry

private theorem shows_entries (t : Transfers) : Shows t.list t.entries := by
  have late : t.byStart.map Transfer.entry = t.entries := List.map_mergeSort fun _ _ _ _ => rfl
  exact ⟨t.byStart, sortedFrom_byStart t, late.symm⟩

inductive Viewing.Event
  | call (c : Call)
  | poll

/-- The transfers, a view of them, and the lists that the view has yielded. -/
structure Viewing where
  transfers : Transfers
  view : TransfersView
  shown : List (List TransferEntry) := []

namespace Viewing

def play (s : Viewing) : Event → Viewing
  | .call c => { s with transfers := s.transfers.apply c }
  | .poll =>
    { s with
      view := (s.view.poll s.transfers).2
      shown := s.shown ++ (s.view.poll s.transfers).1.toList }

def run (s : Viewing) (events : List Event) : Viewing := events.foldl play s

/-- A view that was just opened. -/
def ofTransfers (t : Transfers) : Viewing := { transfers := t, view := t.view }

/-- The notices that the view has not met. -/
def unread (s : Viewing) : List Unit := s.transfers.changes.since s.view.place

private theorem length_unread (s : Viewing) :
    s.unread.length = s.transfers.changes.place - s.view.place :=
  Feed.length_since ..

/-- How many lists are still to come if nothing is missed: the first, and one for each notice. -/
def remaining (s : Viewing) : Nat := s.unread.length + (!s.view.started).toNat

/-- What a poll yields, and the view after it. -/
inductive Polled (s : Viewing) : Option (List TransferEntry) × TransfersView → Prop
  | first : s.view.started = false →
      Polled s (some s.transfers.entries, { s.view with started := true })
  /-- One notice is met, or it is learnt that some were missed. -/
  | news {place : Nat} : s.view.started = true → s.view.place < place →
      place ≤ s.transfers.changes.place →
      (s.transfers.changes.oldest ≤ s.view.place → place = s.view.place + 1) →
      Polled s (some s.transfers.entries, { s.view with place })
  | nothing : s.view.started = true → s.unread = [] → Polled s (none, s.view)

private theorem polled {s : Viewing} (inside : s.view.place ≤ s.transfers.changes.place) :
    s.Polled (s.view.poll s.transfers) := by
  cases started : s.view.started with
  | false =>
    have first : s.view.poll s.transfers =
        (some s.transfers.entries, { s.view with started := true }) := by
      simp [TransfersView.poll, started]
    rw [first]
    exact .first started
  | true =>
    rcases Feed.next?_cases_of_accepts_all (fun _ => some ()) (fun _ => rfl) inside with
      ⟨read, stops⟩ | ⟨_, place, meets, further, within, one⟩
    · have pending : s.view.poll s.transfers = (none, s.view) := by
        rw [TransfersView.poll, if_pos started, stops]
        rfl
      rw [pending]
      exact .nothing started read
    · have yields : s.view.poll s.transfers =
          (some s.transfers.entries, { s.view with place }) := by
        rw [TransfersView.poll, if_pos started, meets]
        rfl
      rw [yields]
      exact .news started further within one

/-- A view that has come along from the state in which it was opened: it has something to yield, or
its last list is the present one. -/
structure Follows (opened : Transfers) (s : Viewing) : Prop where
  forward : opened.changes.place ≤ s.view.place
  inside : s.view.place ≤ s.transfers.changes.place
  started : s.view.started = true ↔ s.shown ≠ []
  fresh : s.shown ≠ [] → s.unread = [] → s.shown.getLast? = some s.transfers.entries

namespace Follows

variable {opened : Transfers} {s : Viewing}

private theorem begin (t : Transfers) : Follows t (ofTransfers t) where
  forward := Nat.le_refl _
  inside := Nat.le_refl _
  started := by simp [ofTransfers, Transfers.view]
  fresh some := absurd rfl some

private theorem call (h : Follows opened s) (c : Call) : Follows opened (s.play (.call c)) := by
  have place := s.transfers.place_changes_apply c
  cases accepted : s.transfers.accepts c with
  | false =>
    have same : s.play (.call c) = s := by rw [play, apply_of_refused accepted]
    rwa [same]
  | true =>
    rw [accepted, Bool.toNat_true] at place
    have inside : s.view.place < (s.transfers.apply c).changes.place := by
      rw [place]
      exact Nat.lt_succ_of_le h.inside
    refine ⟨h.forward, Nat.le_of_lt inside, h.started, fun _ read => ?_⟩
    -- the notice of this call is unread
    have none := (s.play (.call c)).length_unread
    rw [read, List.length_nil] at none
    exact absurd inside (Nat.not_lt.mpr (Nat.sub_eq_zero_iff_le.mp none.symm))

private theorem poll (h : Follows opened s) : Follows opened (s.play .poll) := by
  have polled := polled h.inside
  unfold play
  generalize s.view.poll s.transfers = result at polled ⊢
  cases polled with
  | first => exact ⟨h.forward, h.inside, by simp, fun _ _ => List.getLast?_concat⟩
  | news started further within =>
    refine ⟨Nat.le_trans h.forward (Nat.le_of_lt further), within, ?_,
      fun _ _ => List.getLast?_concat⟩
    simpa using started
  | nothing =>
    simpa using h

private theorem run (h : Follows opened s) (events : List Event) :
    Follows opened (s.run events) := by
  induction events generalizing s with
  | nil => exact h
  | cons e later ih =>
    cases e with
    | call c => exact ih (h.call c)
    | poll => exact ih h.poll

private theorem yields (h : Follows opened s) {list : List TransferEntry} {view : TransfersView}
    (polls : s.view.poll s.transfers = (some list, view)) : list = s.transfers.entries := by
  have polled := polled h.inside
  rw [polls] at polled
  cases polled <;> rfl

/-- A view that has nothing to yield has met every notice and shown the present list. -/
private theorem pending (h : Follows opened s) {view : TransfersView}
    (polls : s.view.poll s.transfers = (none, view)) :
    s.unread = [] ∧ s.shown.getLast? = some s.transfers.entries := by
  have polled := polled h.inside
  rw [polls] at polled
  cases polled with
  | nothing started read => exact ⟨read, h.fresh (h.started.mp started) read⟩

private theorem remaining_poll (h : Follows opened s) :
    (s.play .poll).remaining ≤ s.remaining - 1 := by
  have polled := polled h.inside
  unfold play remaining
  rw [length_unread, length_unread]
  generalize s.view.poll s.transfers = result at polled ⊢
  cases polled with
  | first unstarted =>
    rw [unstarted, Bool.not_false, Bool.not_true, Bool.toNat_true, Bool.toNat_false]
    exact Nat.le_refl _
  | news started further within =>
    simp only [started, Bool.not_true, Bool.toNat_false]
    omega
  | nothing started read =>
    have none := s.length_unread
    rw [read, List.length_nil] at none
    simp only [started, Bool.not_true, Bool.toNat_false]
    omega

private theorem remaining_run_polls (h : Follows opened s) {polls : Nat}
    (enough : s.remaining ≤ polls) :
    (s.run (List.replicate polls .poll)).remaining = 0 := by
  induction polls generalizing s with
  | zero => exact Nat.le_zero.mp enough
  | succ polls ih =>
    have fewer := h.remaining_poll
    exact ih h.poll (by omega)

private theorem fst_poll_of_remaining (h : Follows opened s) (done : s.remaining = 0) :
    (s.view.poll s.transfers).1 = none := by
  have polled := polled h.inside
  unfold remaining at done
  rw [length_unread] at done
  generalize s.view.poll s.transfers = result at polled ⊢
  cases polled with
  | first unstarted =>
    rw [unstarted, Bool.not_false, Bool.toNat_true] at done
    omega
  | news _ further within => omega
  | nothing => rfl

end Follows

/-- How many of the calls among some events are accepted. -/
def accepted (t : Transfers) : List Event → Nat
  | [] => 0
  | .call c :: later => (t.call c).1.toNat + accepted (t.apply c) later
  | .poll :: later => accepted t later

private theorem place_changes_run (s : Viewing) (events : List Event) :
    (s.run events).transfers.changes.place =
      s.transfers.changes.place + accepted s.transfers events := by
  induction events generalizing s with
  | nil => rfl
  | cons e later ih =>
    have rest := ih (s.play e)
    cases e with
    | call c =>
      have place : (s.play (.call c)).transfers.changes.place =
          s.transfers.changes.place + (s.transfers.accepts c).toNat :=
        s.transfers.place_changes_apply c
      rw [place] at rest
      rw [accepted, fst_call, ← Nat.add_assoc]
      exact rest
    | poll => exact rest

/-- A view has yielded one list for itself and one for every notice that it has met. -/
def Counted (opened : Transfers) (s : Viewing) : Prop :=
  s.view.place + s.view.started.toNat = opened.changes.place + s.shown.length

private theorem Counted.poll {opened : Transfers} {s : Viewing} (h : Counted opened s)
    (follows : Follows opened s) (held : s.transfers.changes.oldest ≤ s.view.place) :
    Counted opened (s.play .poll) := by
  have polled := polled follows.inside
  unfold Counted at h ⊢
  unfold play
  generalize s.view.poll s.transfers = result at polled ⊢
  cases polled with
  | first unstarted =>
    rw [unstarted, Bool.toNat_false] at h
    simp only [Option.toList_some, List.length_append, List.length_singleton, Bool.toNat_true]
    omega
  | news started _ _ met =>
    rw [started, Bool.toNat_true] at h
    simp only [started, met held, Option.toList_some, List.length_append, List.length_singleton,
      Bool.toNat_true]
    omega
  | nothing => simpa using h

private theorem Counted.run {opened : Transfers} {s : Viewing} {events : List Event}
    (h : Counted opened s) (follows : Follows opened s) (keepsUp : ∀ front, front <+: events →
      (s.run front).transfers.changes.oldest ≤ (s.run front).view.place) :
    Counted opened (s.run events) := by
  induction events generalizing s with
  | nil => exact h
  | cons e later ih =>
    have held := keepsUp [] List.nil_prefix
    have further : ∀ front, front <+: later →
        ((s.play e).run front).transfers.changes.oldest ≤ ((s.play e).run front).view.place :=
      fun front isPrefix => keepsUp (e :: front) (List.cons_prefix_cons.mpr ⟨rfl, isPrefix⟩)
    cases e with
    | call c => exact ih h (follows.call c) further
    | poll => exact ih (h.poll follows held) follows.poll further

private theorem transfers_run_polls (s : Viewing) (polls : Nat) :
    (s.run (List.replicate polls .poll)).transfers = s.transfers := by
  induction polls generalizing s with
  | zero => rfl
  | succ polls ih => exact ih (s.play .poll)

private theorem capacity_changes_run (s : Viewing) (events : List Event) :
    (s.run events).transfers.changes.capacity = s.transfers.changes.capacity := by
  induction events generalizing s with
  | nil => rfl
  | cons e later ih =>
    cases e with
    | call c => exact (ih (s.play (.call c))).trans (s.transfers.capacity_changes_apply c)
    | poll => exact ih (s.play .poll)

/-- Whatever calls and polls happen after a view was opened: each list that the view yields shows
the one of that moment in the order of the starts; when it has nothing to yield, it has met every
notice and its last list is the present one, also where it has missed some; it has nothing to yield
after one poll more than there are unread notices; and as long as no more than 64 were unread at
once, it has yielded one list for itself and one for every accepted call whose notice it has met. -/
theorem transfers_view_keeps_up (earlier : List Call) (events : List Event) :
    let start := ofTransfers (after earlier)
    let s := start.run events
    (∀ list view, s.view.poll s.transfers = (some list, view) →
      Shows s.transfers.list list) ∧
    (∀ view, s.view.poll s.transfers = (none, view) →
      s.unread = [] ∧ ∃ list, s.shown.getLast? = some list ∧ Shows s.transfers.list list) ∧
    (let t := s.run (List.replicate (s.unread.length + 1) .poll);
      t.transfers = s.transfers ∧ (t.view.poll t.transfers).1 = none) ∧
    ((∀ front, front <+: events → (start.run front).unread.length ≤ 64) → s.shown ≠ [] →
      s.shown.length + s.unread.length = 1 + accepted start.transfers events) := by
  intro start s
  have begun := Follows.begin (after earlier)
  have follows : Follows (after earlier) s := begun.run events
  refine ⟨?_, ?_, ?_, ?_⟩
  · intro list view polls
    rw [follows.yields polls]
    exact shows_entries s.transfers
  · intro view polls
    obtain ⟨read, last⟩ := follows.pending polls
    exact ⟨read, s.transfers.entries, last, shows_entries s.transfers⟩
  · have enough : s.remaining ≤ s.unread.length + 1 :=
      Nat.add_le_add_left (Bool.toNat_le _) _
    exact ⟨s.transfers_run_polls _,
      (follows.run _).fst_poll_of_remaining (follows.remaining_run_polls enough)⟩
  · intro keepsUp some
    have held : ∀ front, front <+: events →
        (start.run front).transfers.changes.oldest ≤ (start.run front).view.place := by
      intro front isPrefix
      rw [Feed.oldest_le_iff, capacity_changes_run]
      exact Nat.le_trans (keepsUp front isPrefix)
        (Nat.le_of_eq (capacity_changes_after earlier).symm)
    have counted : Counted (after earlier) s := Counted.run (Nat.add_zero _) begun held
    have sent : s.transfers.changes.place =
        (after earlier).changes.place + accepted start.transfers events :=
      start.place_changes_run events
    have inside := follows.inside
    rw [Counted, follows.started.mpr some, Bool.toNat_true] at counted
    rw [length_unread]
    omega

end Viewing

end PeerPanel.Transfers
