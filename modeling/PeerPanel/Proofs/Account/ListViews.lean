import PeerPanel.Proofs.Account.Viewing

/-!
Views of a media list lose no change.

Whatever happens between the polls of a view, a window is the one over the list at the moment of the
poll, and a view that has nothing to yield has shown the list as it is. While a view does not miss
notices it yields one window for itself and one for every change of its list
(`Viewing.Counted`). Main statement: `Viewing.list_view_loses_nothing`.
-/

set_option autoImplicit false
set_option relaxedAutoImplicit false

namespace PeerPanel

open Account (Change)

namespace Account

/-- A view of the history of the peers of a key, or of what is scheduled. -/
def listView (a : Account) (scheduled : Bool) (key : WindowKey) (before after : Nat) : LiveView :=
  if scheduled then a.scheduledView key before after else a.historyView key before after

/-- The window over a list as it is. -/
def listWindow (a : Account) (scheduled : Bool) (key : WindowKey) (before after : Nat) :
    Except Fault MediaWindow :=
  if scheduled then .ok (.cut key .scheduled (a.scheduledMedia key.peer key.kind) before after)
  else (a.mergedMedia key.peer key.migrated key.kind).map (.cut key .merged · before after)

section

variable (a : Account) (scheduled : Bool) (key : WindowKey) (before after : Nat)

theorem started_listView : (a.listView scheduled key before after).started = false := by
  cases scheduled <;> rfl

theorem place_listView :
    (a.listView scheduled key before after).place = a.mediaNotices.place := by
  cases scheduled <;> rfl

private theorem begun_listView :
    (a.listView scheduled key before after).begun =
      { a.listView scheduled key before after with started := true } := by
  cases scheduled <;> rfl

theorem concerns_listView (n : MediaNotice) :
    (a.listView scheduled key before after).concerns n = n.isAbout scheduled key := by
  rw [LiveView.concerns_eq]
  cases scheduled <;> rfl

private theorem window_listView (b : Account) :
    (a.listView scheduled key before after).window b = b.listWindow scheduled key before after := by
  cases scheduled with
  | true => rfl
  | false =>
    show (b.mergedMedia key.peer key.migrated key.kind >>= _) = _
    rw [listWindow, if_neg Bool.false_ne_true]
    cases b.mergedMedia key.peer key.migrated key.kind <;> rfl

end

end Account

namespace Viewing

variable {opened : LiveView} {s t : Viewing} {events : List Event}

/-- What was yielded and what is still to come make up the first window and one for each notice
since the view was opened. -/
def Counted (opened : LiveView) (s : Viewing) : Prop :=
  s.shown ≠ [] →
    s.shown.length + s.unread.countP opened.concerns =
      1 + (s.account.mediaNotices.since opened.place).countP opened.concerns

private theorem Counted.change (h : Counted opened s) (follows : Follows opened s) (c : Change) :
    Counted opened { s with account := s.account.apply c } := by
  intro some
  have sent := s.account.mediaNotices_apply c
  have counted := h some
  unfold unread at counted ⊢
  cases notice : c.mediaNotice? s.account with
  | none =>
    rw [notice] at sent
    rw [sent]
    exact counted
  | some n =>
    rw [notice] at sent
    have opened_inside := Nat.le_trans follows.forward follows.inside
    simp only [sent, Feed.since_send follows.inside, Feed.since_send opened_inside,
      List.countP_append]
    omega

private theorem Counted.poll (h : Counted opened s) (follows : Follows opened s)
    (unopened : opened.started = false)
    (held : s.account.mediaNotices.oldest ≤ s.view.place) (polls : s.play .poll = .ok t) :
    Counted opened t := by
  intro _
  cases follows.polled unopened polls with
  | first => rfl
  | news some _ _ _ met =>
    obtain ⟨passed, n, split, refused, concerns⟩ := met held
    have counted := h some
    have passedBy : passed.countP opened.concerns = 0 :=
      List.countP_eq_zero.mpr fun m hm => by simp [refused m hm]
    rw [split, List.countP_append, passedBy, List.countP_cons_of_pos concerns] at counted
    simp only [List.length_append, List.length_singleton, unread]
    omega
  | nothing some level =>
    have counted := h some
    have none : s.unread.countP opened.concerns = 0 := by
      refine List.countP_eq_zero.mpr fun n unread concerns => level (.inr ⟨n, unread, ?_⟩)
      rwa [follows.concerns_eq]
    rw [none] at counted
    rw [unread, Feed.since_place, List.countP_nil]
    exact counted

private theorem Counted.run (h : Counted opened s) (follows : Follows opened s)
    (unopened : opened.started = false)
    (keepsUp : ∀ front u, front <+: events → s.run front = .ok u →
      u.account.mediaNotices.oldest ≤ u.view.place)
    (runs : s.run events = .ok t) : Counted opened t := by
  induction events generalizing s with
  | nil =>
    cases runs
    exact h
  | cons e later ih =>
    -- the next event finds a view that has missed nothing, and so do the later ones
    have held := keepsUp [] s List.nil_prefix rfl
    rw [Viewing.run, List.foldlM_cons] at runs
    cases plays : s.play e with
    | error f => rw [plays] at runs; cases runs
    | ok next =>
      rw [plays] at runs
      have counted : Counted opened next := by
        cases e with
        | change c =>
          cases plays
          exact h.change follows c
        | poll => exact h.poll follows unopened held plays
      refine ih counted (follows.play unopened plays) ?_ runs
      intro front u isPrefix reaches
      refine keepsUp (e :: front) u (List.cons_prefix_cons.mpr ⟨rfl, isPrefix⟩) ?_
      rw [Viewing.run, List.foldlM_cons, plays]
      exact reaches

private theorem capacity_of_run (runs : s.run events = .ok t) :
    t.account.mediaNotices.capacity = s.account.mediaNotices.capacity := by
  refine foldlM_invariant
    (P := fun u : Viewing => u.account.mediaNotices.capacity = s.account.mediaNotices.capacity)
    (fun u e v same plays => ?_) runs rfl
  rw [← same]
  cases e with
  | change c =>
    cases plays
    exact Account.capacity_mediaNotices_apply u.account c
  | poll => rw [account_of_poll plays]

/-- A view that was just opened on a list of an account. -/
def ofList (a : Account) (scheduled : Bool) (key : WindowKey) (before after : Nat) : Viewing :=
  { account := a, view := a.listView scheduled key before after }

theorem follows_ofList {a : Account} (coherent : a.Coherent) (scheduled : Bool) (key : WindowKey)
    (before after : Nat) :
    Follows (a.listView scheduled key before after) (ofList a scheduled key before after) :=
  .begin coherent (a.place_listView scheduled key before after)

theorem window_of_follows_listView {a : Account} {scheduled : Bool} {key : WindowKey}
    {before after : Nat} (h : Follows (a.listView scheduled key before after) s) :
    s.view.window s.account = s.account.listWindow scheduled key before after := by
  rw [← a.window_listView scheduled key before after]
  by_cases none : s.shown = []
  · rw [h.unstarted none]
  · rw [h.started none, Account.begun_listView]
    rfl

private theorem upToDate_listView {a : Account} {scheduled : Bool} {key : WindowKey}
    {before after : Nat}
    (h : UpToDate (a.listView scheduled key before after) s) :
    ∃ w, s.shown.getLast? = some w ∧
      s.account.listWindow scheduled key before after = .ok w := by
  obtain ⟨w, last, present⟩ := h
  refine ⟨w, last, ?_⟩
  rw [← a.window_listView scheduled key before after]
  rcases present with cut | ⟨-, cut⟩
  · rw [Account.begun_listView] at cut
    exact cut
  · exact cut

theorem oldest_le_of_unread {earlier : List Change} {scheduled : Bool} {key : WindowKey}
    {before after : Nat}
    (reaches : (ofList (Account.after earlier) scheduled key before after).run events = .ok s)
    (few : s.unread.length ≤ 256) : s.account.mediaNotices.oldest ≤ s.view.place := by
  have capacity : s.account.mediaNotices.capacity = 256 :=
    (capacity_of_run reaches).trans (Account.capacity_mediaNotices_after earlier)
  rw [Feed.oldest_le_iff, capacity]
  exact few

/-- A view that never misses a notice yields its first window and one for every change of its list,
or has them before it. -/
private theorem count_listView {earlier : List Change} {scheduled : Bool} {key : WindowKey}
    {before after : Nat}
    (held : ∀ front u, front <+: events →
      (ofList (Account.after earlier) scheduled key before after).run front = .ok u →
      u.account.mediaNotices.oldest ≤ u.view.place)
    (runs : (ofList (Account.after earlier) scheduled key before after).run events = .ok s)
    (some : s.shown ≠ []) :
    s.shown.length + s.unread.countP (·.isAbout scheduled key) =
      1 + published (·.isAbout scheduled key) (Account.after earlier) events := by
  have follows := follows_ofList (Account.coherent_after earlier) scheduled key before after
  have unopened := (Account.after earlier).started_listView scheduled key before after
  have counted := Counted.run (fun some => absurd rfl some) follows unopened held runs some
  have atOpening : (Account.after earlier).mediaNotices.since
      ((Account.after earlier).listView scheduled key before after).place = [] := by
    rw [Account.place_listView]
    exact Feed.since_place _
  have sent : (s.account.mediaNotices.since
      ((Account.after earlier).listView scheduled key before after).place).countP
        (·.isAbout scheduled key) =
      ((Account.after earlier).mediaNotices.since
        ((Account.after earlier).listView scheduled key before after).place).countP
          (·.isAbout scheduled key) +
        published (·.isAbout scheduled key) (Account.after earlier) events :=
    countP_since_run _ runs follows.inside
  rw [atOpening, List.countP_nil, Nat.zero_add] at sent
  rwa [funext ((Account.after earlier).concerns_listView scheduled key before after), sent]
    at counted

/-- Whatever happens to an account on which a view of a list was opened: each window that the view
yields is the one over the list as it is then; when it has nothing to yield, its last window is the
one over the list as it is, also where it has missed notices; and as long as it does not, it yields
one window and one more for every change of the list since it was opened. It stops only at a poll of
a list of which there is no window. -/
theorem list_view_loses_nothing (earlier : List Change) (scheduled : Bool) (key : WindowKey)
    (before after : Nat) (events : List Event) :
    let start := ofList (Account.after earlier) scheduled key before after
    (∃ s, start.run events = .ok s ∧
      (∀ w view, s.view.poll s.account = .ok (some w, view) →
        s.account.listWindow scheduled key before after = .ok w) ∧
      (∀ view, s.view.poll s.account = .ok (none, view) →
        (∀ n ∈ s.unread, n.isAbout scheduled key = false) ∧
        ∃ w, s.shown.getLast? = some w ∧
          s.account.listWindow scheduled key before after = .ok w) ∧
      ((∀ front u, front <+: events → start.run front = .ok u → u.unread.length ≤ 256) →
        s.shown ≠ [] →
        s.shown.length + s.unread.countP (·.isAbout scheduled key) =
          1 + published (·.isAbout scheduled key) start.account events)) ∨
    ∃ front back u f, events = front ++ .poll :: back ∧ start.run front = .ok u ∧
      u.view.poll u.account = .error f ∧
      u.account.listWindow scheduled key before after = .error f := by
  intro start
  have follows := follows_ofList (Account.coherent_after earlier) scheduled key before after
  have unopened := (Account.after earlier).started_listView scheduled key before after
  have concerns :=
    funext ((Account.after earlier).concerns_listView scheduled key before after)
  cases runs : start.run events with
  | error f =>
    right
    obtain ⟨front, back, u, split, reaches, stops⟩ := exists_poll_of_run_eq_error runs
    refine ⟨front, back, u, f, split, reaches, stops, ?_⟩
    rw [← window_of_follows_listView (follows.run unopened reaches)]
    exact LiveView.window_eq_error_of_poll stops
  | ok s =>
    left
    have reached := follows.run unopened runs
    refine ⟨s, rfl, fun w view yields => ?_, fun view pends => ?_, fun keepsUp some => ?_⟩
    · rw [← window_of_follows_listView reached]
      exact LiveView.window_eq_ok_of_poll yields
    · obtain ⟨fresh, unconcerned⟩ := reached.drained unopened pends
      rw [concerns] at unconcerned
      exact ⟨unconcerned, upToDate_listView fresh⟩
    · have held : ∀ front u, front <+: events → start.run front = .ok u →
          u.account.mediaNotices.oldest ≤ u.view.place :=
        fun front u isPrefix reaches =>
          oldest_le_of_unread reaches (keepsUp front u isPrefix reaches)
      exact count_listView held runs some

end Viewing

end PeerPanel
