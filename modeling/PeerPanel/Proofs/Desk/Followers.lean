import PeerPanel.Desk.Stream
import PeerPanel.Proofs.Account.PeerReading
import PeerPanel.Proofs.Account.Viewing
import PeerPanel.Proofs.Lifetime

/-!
What a follower is told in one turn.

A turn takes a bounded number of values. Every value that a stream yields brings it nearer to the
end of what the publishers hold for it (`Stream.ahead`), and the bound is beyond that. So a turn
takes all that the stream has ready, and tells it: `Desk.drains_run`.
-/

set_option autoImplicit false
set_option relaxedAutoImplicit false

namespace PeerPanel

/-- A source yields some values when it is asked until it has none ready or ends, and leaves what it
is then unless it has ended. -/
inductive Drains {σ α : Type} (ask : σ → Reply α σ) : σ → List α → Option σ → Prop
  | value {source rest : σ} {a : α} {values : List α} {left : Option σ} :
      ask source = .value a rest → Drains ask rest values left →
      Drains ask source (a :: values) left
  | pending {source rest : σ} : ask source = .pending rest → Drains ask source [] (some rest)
  | ended {source : σ} : ask source = .ended → Drains ask source [] none

private theorem drains_takeReady {σ α : Type} {ask : σ → Reply α σ} {ahead : σ → Nat}
    (falls : ∀ source a rest, ask source = .value a rest → ahead rest < ahead source)
    {source : σ} {most : Nat} (enough : ahead source < most) :
    Drains ask source (takeReady ask most source).1 (takeReady ask most source).2 := by
  induction most generalizing source with
  | zero => cases enough
  | succ most ih =>
    rw [takeReady]
    cases asked : ask source with
    | value a rest =>
      have nearer := falls source a rest asked
      exact .value asked (ih (by omega))
    | pending rest => exact .pending asked
    | ended => exact .ended asked

namespace Feed

variable {α : Type} {f : Feed α} {place : Nat}

private theorem ahead_le (f : Feed α) (started : Bool) (place : Nat) :
    f.ahead started place ≤ f.place + 1 := by
  have once := Bool.toNat_le (!started)
  unfold ahead
  omega

theorem ahead_start (f : Feed α) (place : Nat) : f.ahead true place < f.ahead false place :=
  Nat.lt_succ_self _

private theorem ahead_lt_of_next? {β : Type} {accept : Received α → Option β} {b : β}
    (met : (f.next? accept place).1 = some b) :
    f.ahead true (f.next? accept place).2 < f.ahead true place := by
  have onward : place < (f.next? accept place).2 ∧ (f.next? accept place).2 ≤ f.place :=
    lt_of_next?_eq_some (Prod.ext met rfl)
  unfold ahead
  omega

end Feed

private theorem LiveView.ahead_lt_of_poll {v rest : LiveView} {a : Account} {w : MediaWindow}
    (polls : v.poll a = .ok (some w, rest)) :
    a.mediaNotices.ahead rest.started rest.place < a.mediaNotices.ahead v.started v.place := by
  have cut := window_eq_ok_of_poll polls
  rcases v.poll_cases a with ⟨started, eq⟩ | ⟨started, place, met, eq⟩ | ⟨-, place, -, eq⟩
  · rw [eq, cut] at polls
    cases polls
    rw [started]
    exact Feed.ahead_start _ _
  · have further := Feed.ahead_lt_of_next? (congrArg Prod.fst met)
    rw [eq, cut] at polls
    cases polls
    rwa [met, ← started] at further
  · rw [eq] at polls
    cases polls

private theorem PeerView.ahead_lt_of_poll {v : PeerView} {a : Account} {n : PeerNotice}
    (yields : (v.poll a).1 = some n) :
    (v.poll a).2.ahead a < v.ahead a := by
  unfold ahead
  rcases v.poll_cases a with ⟨started, polls⟩ | ⟨started, polls⟩
  · rw [polls, started]
    exact Feed.ahead_start _ _
  · rw [polls] at yields ⊢
    rw [started]
    exact Feed.ahead_lt_of_next? yields

private theorem TransfersView.ahead_lt_of_poll {v : TransfersView} {t : Transfers}
    {list : List TransferEntry} (yields : (v.poll t).1 = some list) :
    t.changes.ahead (v.poll t).2.started (v.poll t).2.place <
      t.changes.ahead v.started v.place := by
  unfold poll at yields ⊢
  split
  · next started =>
    rw [if_pos started] at yields
    obtain ⟨_, met, -⟩ := Option.map_eq_some_iff.mp yields
    rw [started]
    exact Feed.ahead_lt_of_next? met
  · next unstarted =>
    rw [Bool.eq_false_iff.mpr unstarted]
    exact Feed.ahead_start _ _

private theorem Observer.news_of_poll {α : Type} {o rest : Observer} {w : Watched α} {a : α}
    (polls : o.poll w = (some a, rest)) : o.hasNews w = true ∧ rest.hasNews w = false := by
  unfold poll at polls
  split at polls
  · next news =>
    cases polls
    exact ⟨news, by simp [hasNews]⟩
  · cases polls

namespace Desk

/-- How many values a tap can still yield. -/
def Tap.ahead {α : Type} (t : Tap α) (present : Option (Watched α)) : Nat :=
  ((t.left.or present).any t.observer.hasNews).toNat

private theorem Tap.ahead_le {α : Type} (t : Tap α) (present : Option (Watched α)) :
    t.ahead present ≤ 1 :=
  Bool.toNat_le _

private theorem Tap.ahead_lt_of_poll {α : Type} {t rest : Tap α} {present : Option (Watched α)}
    {value : α → Value} {v : Value} (polls : t.poll present value = (.value v, rest)) :
    rest.owner = t.owner ∧ rest.ahead present < t.ahead present := by
  unfold Tap.poll at polls
  cases left : t.left with
  | some w =>
    rcases met : t.observer.poll w with ⟨_ | a, observer⟩
    · simp [left, met] at polls
    · simp only [left, met] at polls
      cases polls
      obtain ⟨news, read⟩ := Observer.news_of_poll met
      simp [Tap.ahead, left, news, read]
  | none =>
    cases present with
    | none => simp [left] at polls
    | some w =>
      rcases met : t.observer.poll w with ⟨_ | a, observer⟩
      · simp [left, met, Answer.ofOption] at polls
      · simp only [left, met] at polls
        cases polls
        obtain ⟨news, read⟩ := Observer.news_of_poll met
        simp [Tap.ahead, left, news, read]

namespace Stream

/-- An upper bound for the number of values that a stream can have ready. -/
def ahead (p : Publishers) : Stream → Nat
  | text t => t.ahead (p.text? t.owner)
  | flag t => t.ahead (p.flag? t.owner)
  | wrap t => t.ahead (p.wrap? t.owner)
  | single _ | wait _ => 1
  | s => s.unread p.account p.transfers

variable {p : Publishers} {s rest : Stream} {v : Value}

private theorem ahead_lt_readyBound (p : Publishers) (s : Stream) : s.ahead p < readyBound p := by
  have media (started : Bool) (place : Nat) :
      p.account.mediaNotices.ahead started place < readyBound p := by
    have := p.account.mediaNotices.ahead_le started place
    unfold readyBound
    omega
  have peers (started : Bool) (place : Nat) :
      p.account.peerNotices.ahead started place < readyBound p := by
    have := p.account.peerNotices.ahead_le started place
    unfold readyBound
    omega
  have changes (started : Bool) (place : Nat) :
      p.transfers.changes.ahead started place < readyBound p := by
    have := p.transfers.changes.ahead_le started place
    unfold readyBound
    omega
  have few {n : Nat} (once : n ≤ 1) : n < readyBound p := by
    unfold readyBound
    omega
  cases s with
  | view v => exact media v.started v.place
  | mediaNotices place => exact media true place
  | peer v => exact peers v.started v.place
  | transfers v => exact changes v.started v.place
  | transferChanges place => exact changes true place
  | text t => exact few (t.ahead_le _)
  | flag t => exact few (t.ahead_le _)
  | wrap t => exact few (t.ahead_le _)
  | single | wait => exact few (Nat.le_refl 1)
  | ended => exact few (Nat.zero_le 1)

private theorem poll_of_ask (asked : s.ask p = .value v rest) :
    s.poll p = .ok (.value v, rest) := by
  unfold ask at asked
  split at asked <;> cases asked
  assumption

private theorem eq_some_of_ofOption {o : Option Value}
    (polls : (.ok (.ofOption o, s) : Except Fault (Answer × Stream)) = .ok (.value v, rest)) :
    o = some v ∧ s = rest := by
  cases o <;> cases polls
  exact ⟨rfl, rfl⟩

private theorem ahead_lt_of_tap {α : Type} (stream : Tap α → Stream)
    (present : Owner → Option (Watched α))
    (counts : ∀ t, (stream t).ahead p = t.ahead (present t.owner)) {t : Tap α} {value : α → Value}
    (polls : (.ok ((t.poll (present t.owner) value).1,
      stream (t.poll (present t.owner) value).2) : Except Fault (Answer × Stream)) =
        .ok (.value v, rest)) :
    rest.ahead p < (stream t).ahead p := by
  rcases met : t.poll (present t.owner) value with ⟨answer, next⟩
  rw [met] at polls
  cases polls
  obtain ⟨owner, fewer⟩ := Tap.ahead_lt_of_poll met
  rwa [counts, counts, owner]

private theorem ahead_lt_of_ask (asked : s.ask p = .value v rest) : rest.ahead p < s.ahead p := by
  have polls := poll_of_ask asked
  cases s with
  | view w =>
    rw [poll] at polls
    rcases met : w.poll p.account with fault | ⟨_ | shown, next⟩
    · rw [met] at polls
      cases polls
    · rw [met] at polls
      cases polls
    · rw [met] at polls
      cases polls
      exact LiveView.ahead_lt_of_poll met
  | transfers w =>
    obtain ⟨yields, rfl⟩ := eq_some_of_ofOption polls
    obtain ⟨list, met, -⟩ := Option.map_eq_some_iff.mp yields
    exact TransfersView.ahead_lt_of_poll met
  | transferChanges place =>
    obtain ⟨met, rfl⟩ := eq_some_of_ofOption polls
    exact Feed.ahead_lt_of_next? met
  | peer w =>
    obtain ⟨yields, rfl⟩ := eq_some_of_ofOption polls
    obtain ⟨n, met, -⟩ := Option.map_eq_some_iff.mp yields
    exact PeerView.ahead_lt_of_poll met
  | mediaNotices place =>
    obtain ⟨met, rfl⟩ := eq_some_of_ofOption polls
    exact Feed.ahead_lt_of_next? met
  | text t => exact ahead_lt_of_tap text p.text? (fun _ => rfl) polls
  | flag t => exact ahead_lt_of_tap flag p.flag? (fun _ => rfl) polls
  | wrap t => exact ahead_lt_of_tap wrap p.wrap? (fun _ => rfl) polls
  | single w =>
    cases polls
    exact Nat.one_pos
  | wait due =>
    rw [poll] at polls
    split at polls
    · cases polls
      exact Nat.one_pos
    · cases polls
  | ended => cases polls

private theorem drains_readyBound (p : Publishers) (s : Stream) :
    Drains (ask p) s (takeReady (ask p) (readyBound p) s).1
      (takeReady (ask p) (readyBound p) s).2 :=
  drains_takeReady (fun _ _ _ => ahead_lt_of_ask) (ahead_lt_readyBound p s)

end Stream

/-- In its turn a subscription tells all that its stream has ready, and runs on unless the stream
has ended. -/
theorem drains_run {l : Lifetime Stream} {step : Nat} (owned : l.Owned step)
    {r : Subscription Stream} (mem : r ∈ l.running) (p : Publishers) :
    ∃ values left, Drains (Stream.ask p) r.source values left ∧
      (l.run r.begun (Stream.ask p) (Stream.readyBound p)).1 = values.map (r.tag, ·) ∧
      (l.run r.begun (Stream.ask p) (Stream.readyBound p)).2.runs r.begun = left.isSome := by
  refine ⟨_, _, Stream.drains_readyBound p r.source, owned.told_run _ _ mem, ?_⟩
  cases left : (takeReady (Stream.ask p) (Stream.readyBound p) r.source).2 with
  | none =>
    have ended : (r.run (Stream.ask p) (Stream.readyBound p)).2 = none :=
      Option.map_eq_none_iff.mpr left
    exact Bool.eq_false_iff.mpr fun runs =>
      owned.gone_run _ _ mem ended (Lifetime.runs_iff.mp runs)
  | some rest =>
    have goes : (r.run (Stream.ask p) (Stream.readyBound p)).2 = some { r with source := rest } :=
      Option.map_eq_some_iff.mpr ⟨rest, left, rfl⟩
    have there := (Lifetime.mem_running_run _ _).mpr (.inl ⟨r, mem, rfl, goes⟩)
    exact Lifetime.runs_iff.mpr (List.mem_map.mpr ⟨_, there, rfl⟩)

end Desk

end PeerPanel
