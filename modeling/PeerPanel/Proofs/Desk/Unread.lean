import Mathlib.Algebra.Order.BigOperators.Group.List
import Mathlib.Algebra.Order.Ring.Nat
import PeerPanel.Proofs.Desk.Followers

/-!
Reading leaves less to read.

A reader goes on in its feed whatever it is asked with, and does not go back. One that has to stop
before it has read all has gone on by then (`Feed.GetsOn`). So what the streams of a lifetime have
to read never grows in a turn, and shrinks in one that is cut short (`Lifetime.weight_run_lt`). A
watch has to pay for what it yields, so that there is something left for the calls.
-/

set_option autoImplicit false
set_option relaxedAutoImplicit false

namespace PeerPanel

theorem total_eq_sum {α : Type} (weigh : α → Nat) (l : List α) :
    total weigh l = (l.map weigh).sum := by
  induction l with
  | nil => rfl
  | cons a rest ih => rw [total, ih, List.map_cons, List.sum_cons]

section

variable {σ α : Type} {ask : σ → Reply α σ} {weigh : σ → Nat} {price : Nat}

/-- What is left of the weight of a source after an answer, with a price for a value. -/
def Reply.weight (weigh : σ → Nat) (price : Nat) : Reply α σ → Nat
  | .value _ rest => price + weigh rest
  | .pending rest => weigh rest
  | .ended => 0

/-- What is left of the weight of a source after some values, with a price for each of them. -/
def weightAfter (weigh : σ → Nat) (price : Nat) (values : List α) (left : Option σ) : Nat :=
  price * values.length + left.elim 0 weigh

private theorem weightAfter_cons (a : α) (values : List α) (left : Option σ) :
    weightAfter weigh price (a :: values) left = price + weightAfter weigh price values left := by
  rw [weightAfter, weightAfter, List.length_cons, Nat.mul_succ]
  omega

private theorem weightAfter_takeReady_succ {most : Nat}
    (le : ∀ source, weightAfter weigh price (takeReady ask most source).1
      (takeReady ask most source).2 ≤ weigh source) (source : σ) :
    weightAfter weigh price (takeReady ask (most + 1) source).1
      (takeReady ask (most + 1) source).2 ≤ (ask source).weight weigh price := by
  rw [takeReady]
  cases ask source with
  | value a rest =>
    rw [weightAfter_cons]
    exact Nat.add_le_add_left (le rest) price
  | pending rest => simp [weightAfter, Reply.weight]
  | ended => simp [weightAfter, Reply.weight]

private theorem weightAfter_takeReady_le
    (pays : ∀ source, (ask source).weight weigh price ≤ weigh source) (most : Nat) (source : σ) :
    weightAfter weigh price (takeReady ask most source).1 (takeReady ask most source).2 ≤
      weigh source := by
  induction most generalizing source with
  | zero => simp [takeReady, weightAfter]
  | succ most ih => exact (weightAfter_takeReady_succ ih source).trans (pays source)

private theorem weightAfter_takeReady_lt
    (pays : ∀ source, (ask source).weight weigh price ≤ weigh source)
    {most : Nat} (some : 0 < most) {source : σ}
    (spends : (ask source).weight weigh price < weigh source) :
    weightAfter weigh price (takeReady ask most source).1 (takeReady ask most source).2 <
      weigh source := by
  obtain ⟨most, rfl⟩ := Nat.exists_eq_succ_of_ne_zero (Nat.ne_of_gt some)
  exact (weightAfter_takeReady_succ (weightAfter_takeReady_le pays most) source).trans_lt spends

namespace Lifetime

/-- What is left of the weight of a subscription after a turn. -/
def weightLeft (weigh : σ → Nat) (price : Nat)
    (turn : List (String × α) × Option (Subscription σ)) :
    Nat :=
  weightAfter (weigh ·.source) price turn.1 turn.2

private theorem weightLeft_run (r : Subscription σ) (most : Nat) :
    weightLeft weigh price (r.run ask most) =
      weightAfter weigh price (takeReady ask most r.source).1 (takeReady ask most r.source).2 := by
  simp only [weightLeft, Subscription.run, weightAfter, List.length_map]
  cases (takeReady ask most r.source).2 <;> rfl

private theorem sum_weightLeft (turns : List (List (String × α) × Option (Subscription σ))) :
    price * (turns.flatMap (·.1)).length + ((turns.filterMap (·.2)).map (weigh ·.source)).sum =
      (turns.map (weightLeft weigh price)).sum := by
  induction turns with
  | nil => rfl
  | cons turn turns ih =>
    rw [List.map_cons, List.sum_cons, ← ih, List.flatMap_cons, List.length_append, Nat.mul_add,
      weightLeft, weightAfter]
    rcases turn with ⟨told, _ | rest⟩
    · simp
      omega
    · simp
      omega

variable (pays : ∀ source, (ask source).weight weigh price ≤ weigh source)

include pays

private theorem weightLeft_turn_le (begun most : Nat) (r : Subscription σ) :
    weightLeft weigh price (if r.begun = begun then r.run ask most else ([], some r)) ≤
      weigh r.source := by
  split
  · rw [weightLeft_run]
    exact weightAfter_takeReady_le pays most r.source
  · simp [weightLeft, weightAfter]

/-- A turn leaves no more to read, less what the values are worth that were told. -/
theorem weight_run_le (l : Lifetime σ) (begun most : Nat) :
    price * (l.run begun ask most).1.length + (l.run begun ask most).2.weight weigh ≤
      l.weight weigh := by
  rw [weight, weight, total_eq_sum, total_eq_sum, run, sum_weightLeft, List.map_map]
  exact List.sum_le_sum fun r _ => weightLeft_turn_le pays begun most r

theorem weight_run_lt {l : Lifetime σ} {begun most : Nat} {source : σ} (some : 0 < most)
    (runs : l.source? begun = .some source)
    (spends : (ask source).weight weigh price < weigh source) :
    price * (l.run begun ask most).1.length + (l.run begun ask most).2.weight weigh <
      l.weight weigh := by
  obtain ⟨r, found, rfl⟩ := Option.map_eq_some_iff.mp runs
  have same : r.begun = begun := by simpa using List.find?_some found
  rw [weight, weight, total_eq_sum, total_eq_sum, run, sum_weightLeft, List.map_map]
  refine List.sum_lt_sum _ _ (fun r _ => weightLeft_turn_le pays begun most r)
    ⟨r, List.mem_of_find?_eq_some found, ?_⟩
  simp only [Function.comp_apply, same, if_true, weightLeft_run]
  exact weightAfter_takeReady_lt pays some spends

end Lifetime

end

namespace Feed

variable {α β : Type} {f g : Feed α} {place : Nat}

/-- A reader of a feed that is asked with another one goes on, unless there is nothing for it. -/
structure GetsOn (f g : Feed α) (started : Bool) (place : Nat) (started' : Bool) (place' : Nat) :
    Prop where
  le : f.ahead started' place' ≤ f.ahead started place
  lt : f.pause? place = some g → f.ahead started' place' < f.ahead started place

private theorem getsOn_start (f g : Feed α) (place : Nat) : GetsOn f g false place true place :=
  ⟨Nat.le_of_lt (f.ahead_start place), fun _ => f.ahead_start place⟩

private theorem lt_stop (f : Feed α) (place : Nat) : place < f.stop place := by
  unfold stop stride
  split <;> omega

private theorem place_of_pause? (pauses : f.pause? place = some g) :
    place < g.place ∧ g.place ≤ f.place := by
  rw [pause?] at pauses
  split at pauses
  · next within =>
    cases pauses
    rw [place_upTo within]
    exact ⟨f.lt_stop place, within⟩
  · cases pauses

private theorem ahead_pos_of_pause? {started : Bool} (pauses : f.pause? place = some g) :
    0 < f.ahead started place := by
  obtain ⟨sent, within⟩ := place_of_pause? pauses
  unfold ahead
  omega

private theorem le_next? (accept : Received α → Option β) (place : Nat) :
    place ≤ (g.next? accept place).2 ∧
      (place < g.place → place < (g.next? accept place).2) := by
  rcases met : g.next? accept place with ⟨_ | b, next⟩
  · have stops {start : Nat} (h : seek accept (g.sent.drop start) start = (none, next)) :
        start ≤ next ∧ g.place ≤ next := by
      have stop := (seek_eq_none h).1
      rw [List.length_drop] at stop
      rw [Feed.place]
      omega
    unfold next? at met
    split at met
    · next behind =>
      split at met
      · cases met
      · obtain ⟨on, last⟩ := stops met
        exact ⟨by simp only; omega, fun _ => Nat.lt_of_lt_of_le behind on⟩
    · obtain ⟨on, last⟩ := stops met
      exact ⟨on, fun sent => Nat.lt_of_lt_of_le sent last⟩
  · obtain ⟨further, -⟩ := lt_of_next?_eq_some met
    exact ⟨Nat.le_of_lt further, fun _ => further⟩

private theorem getsOn_next? (f g : Feed α) (accept : Received α → Option β) (place : Nat) :
    GetsOn f g true place true (g.next? accept place).2 := by
  obtain ⟨forward, further⟩ := g.le_next? accept place
  constructor
  · unfold ahead
    omega
  · intro pauses
    obtain ⟨sent, within⟩ := place_of_pause? pauses
    have on := further sent
    unfold ahead
    omega

end Feed

private theorem LiveView.getsOn_poll {v rest : LiveView} {a b : Account} {w : Option MediaWindow}
    (polls : v.poll b = .ok (w, rest)) :
    a.mediaNotices.GetsOn b.mediaNotices v.started v.place rest.started rest.place := by
  rcases v.poll_cases b with ⟨started, eq⟩ | ⟨started, place, met, eq⟩ | ⟨started, place, met, eq⟩
  · rw [eq] at polls
    cases cut : v.window b <;> rw [cut] at polls <;> cases polls
    rw [started]
    exact Feed.getsOn_start _ _ _
  · have next := a.mediaNotices.getsOn_next? b.mediaNotices v.accepts v.place
    rw [eq] at polls
    cases cut : v.window b <;> rw [cut] at polls <;> cases polls
    rw [met] at next
    rwa [started]
  · have next := a.mediaNotices.getsOn_next? b.mediaNotices v.accepts v.place
    rw [eq] at polls
    cases polls
    rw [met] at next
    rwa [started]

private theorem PeerView.getsOn_poll (v : PeerView) (a b : Account) :
    a.peerNotices.GetsOn b.peerNotices v.started v.place
      (v.poll b).2.started (v.poll b).2.place := by
  rcases v.poll_cases b with ⟨started, polls⟩ | ⟨started, polls⟩
  · rw [polls, started]
    exact Feed.getsOn_start _ _ _
  · rw [polls, started]
    exact Feed.getsOn_next? _ _ _ _

private theorem PeerView.ahead_lt_of_yields {v : PeerView} {a b : Account}
    (within : b.peerNotices.place ≤ a.peerNotices.place) {n : PeerNotice}
    (yields : (v.poll b).1 = some n) : (v.poll b).2.ahead a < v.ahead a := by
  unfold ahead
  rcases v.poll_cases b with ⟨started, polls⟩ | ⟨started, polls⟩
  · rw [polls, started]
    exact Feed.ahead_start _ _
  · rw [polls] at yields ⊢
    have onward : v.place < (b.peerNotices.next? v.accepts v.place).2 ∧
        (b.peerNotices.next? v.accepts v.place).2 ≤ b.peerNotices.place :=
      Feed.lt_of_next?_eq_some (Prod.ext yields rfl)
    simp only [Feed.ahead, started]
    omega

theorem PeerView.weight_ask {v : PeerView} {a b : Account}
    (within : b.peerNotices.place ≤ a.peerNotices.place) :
    (v.ask b).weight (fun v => 3 * v.ahead a) 2 ≤ 3 * v.ahead a ∧
      (v.pause? a = some b → (v.ask b).weight (fun v => 3 * v.ahead a) 2 < 3 * v.ahead a) := by
  have on := v.getsOn_poll a b
  unfold ask
  split
  · next n rest polls =>
    have nearer : rest.ahead a < v.ahead a := by
      have yields := ahead_lt_of_yields within (congrArg Prod.fst polls)
      rwa [polls] at yields
    simp only [Reply.weight]
    omega
  · next rest polls =>
    rw [polls] at on
    have le : rest.ahead a ≤ v.ahead a := on.le
    refine ⟨Nat.mul_le_mul_left 3 le, fun pauses => ?_⟩
    obtain ⟨feed, paused, rfl⟩ := Option.map_eq_some_iff.mp pauses
    have lt : rest.ahead a < v.ahead a := on.lt paused
    exact Nat.mul_lt_mul_of_pos_left lt (Nat.succ_pos 2)

private theorem TransfersView.getsOn_poll (v : TransfersView) (s t : Transfers) :
    s.changes.GetsOn t.changes v.started v.place (v.poll t).2.started (v.poll t).2.place := by
  unfold poll
  split
  · next started =>
    rw [started]
    exact Feed.getsOn_next? _ _ _ _
  · next unstarted =>
    rw [Bool.eq_false_iff.mpr unstarted]
    exact Feed.getsOn_start _ _ _

namespace Desk

namespace Stream

variable {p q : Publishers} {s rest : Stream} {answer : Answer}

private theorem unread_of_poll (polls : s.poll p = .ok (answer, rest)) :
    rest.unread q.account q.transfers ≤ s.unread q.account q.transfers ∧
      (s.pause? q = some p →
        rest.unread q.account q.transfers < s.unread q.account q.transfers) := by
  -- a stream that has to stop on the way is asked with the feed as far as it gets
  cases s with
  | view v =>
    rw [poll] at polls
    rcases met : v.poll p.account with fault | ⟨w, v'⟩
    · rw [met] at polls
      cases polls
    · rw [met] at polls
      cases polls
      have on := LiveView.getsOn_poll (a := q.account) met
      refine ⟨on.le, fun pauses => on.lt ?_⟩
      obtain ⟨feed, paused, rfl⟩ := Option.map_eq_some_iff.mp pauses
      exact paused
  | transfers v =>
    cases polls
    have on := v.getsOn_poll q.transfers p.transfers
    refine ⟨on.le, fun pauses => on.lt ?_⟩
    obtain ⟨feed, paused, rfl⟩ := Option.map_eq_some_iff.mp pauses
    exact paused
  | transferChanges place =>
    cases polls
    have on := q.transfers.changes.getsOn_next? p.transfers.changes
      (fun _ => some Value.changed) place
    refine ⟨on.le, fun pauses => on.lt ?_⟩
    obtain ⟨feed, paused, rfl⟩ := Option.map_eq_some_iff.mp pauses
    exact paused
  | peer v =>
    cases polls
    have on := v.getsOn_poll q.account p.account
    refine ⟨on.le, fun pauses => on.lt ?_⟩
    obtain ⟨account, stops, rfl⟩ := Option.map_eq_some_iff.mp pauses
    obtain ⟨feed, paused, rfl⟩ := Option.map_eq_some_iff.mp stops
    exact paused
  | mediaNotices place =>
    cases polls
    refine ⟨(Feed.getsOn_next? _ p.account.mediaNotices _ place).le, fun pauses =>
      (Feed.getsOn_next? _ p.account.mediaNotices _ place).lt ?_⟩
    obtain ⟨feed, paused, rfl⟩ := Option.map_eq_some_iff.mp pauses
    exact paused
  | text t | flag t | wrap t | single v | ended =>
    cases polls
    exact ⟨Nat.le_refl 0, by simp [pause?]⟩
  | wait due =>
    rw [poll] at polls
    split at polls <;> cases polls <;> exact ⟨Nat.le_refl 0, by simp [pause?]⟩

private theorem unread_pos_of_pause? (pauses : s.pause? q = some p) :
    0 < s.unread q.account q.transfers := by
  cases s with
  | view _ | transfers _ | transferChanges _ | mediaNotices _ =>
    obtain ⟨feed, paused, -⟩ := Option.map_eq_some_iff.mp pauses
    exact Feed.ahead_pos_of_pause? paused
  | peer _ =>
    obtain ⟨account, stops, -⟩ := Option.map_eq_some_iff.mp pauses
    obtain ⟨feed, paused, -⟩ := Option.map_eq_some_iff.mp stops
    exact Feed.ahead_pos_of_pause? paused
  | _ => cases pauses

theorem weight_ask_le (p q : Publishers) (s : Stream) :
    (s.ask p).weight (unread q.account q.transfers) 0 ≤ s.unread q.account q.transfers := by
  unfold ask
  split
  · next polls => exact (Nat.zero_add _).trans_le (unread_of_poll polls).1
  · next polls => exact (unread_of_poll polls).1
  · exact Nat.zero_le _
  · exact Nat.zero_le _

theorem weight_ask_lt (pauses : s.pause? q = some p) :
    (s.ask p).weight (unread q.account q.transfers) 0 < s.unread q.account q.transfers := by
  unfold ask
  split
  · next polls => exact (Nat.zero_add _).trans_lt ((unread_of_poll polls).2 pauses)
  · next polls => exact (unread_of_poll polls).2 pauses
  · exact unread_pos_of_pause? pauses
  · exact unread_pos_of_pause? pauses

end Stream

end Desk

end PeerPanel
