import PeerPanel.Proofs.Account.Separation

/-!
Where the windows of a view come from.

A poll keeps the key that a view is cut at and the timeline that it is cut from, so both are the
same in all windows of a run (`Viewing.Bears`). The first poll yields a window. So two views, one of
which is cut from the scheduled messages, are told apart by any run with a poll
(`Viewing.Bears.shown_run_ne`).
-/

set_option autoImplicit false
set_option relaxedAutoImplicit false

namespace PeerPanel

namespace LiveView

variable {v next : LiveView} {a : Account} {yielded : Option MediaWindow}

private theorem origin_begun (v : LiveView) : v.begun.origin = v.origin := by
  unfold origin begun
  cases v.source <;> rfl

private theorem window_key {w : MediaWindow} (cut : v.window a = .ok w) :
    w.key = v.key ∧ w.origin = v.origin := by
  rw [window] at cut
  cases positions : v.positions a with
  | error fault => rw [positions] at cut; cases cut
  | ok all => rw [positions] at cut; cases cut; exact ⟨rfl, rfl⟩

private theorem exists_window_of_scheduled (scheduled : v.origin = .scheduled) (a : Account) :
    ∃ w, v.window a = .ok w := by
  unfold origin at scheduled
  unfold window positions
  cases source : v.source with
  | scheduled => exact ⟨_, rfl⟩
  | history => rw [source] at scheduled; cases scheduled
  | search text known => rw [source] at scheduled; cases scheduled

private theorem poll_keeps (polls : v.poll a = .ok (yielded, next)) :
    next.key = v.key ∧ next.origin = v.origin ∧
      ∀ w ∈ yielded, w.key = v.key ∧ w.origin = v.origin := by
  rcases v.poll_cases a with ⟨-, eq⟩ | ⟨-, place, -, eq⟩ | ⟨-, place, -, eq⟩
  · rw [eq] at polls
    cases cut : v.window a <;> rw [cut] at polls <;> cases polls
    exact ⟨rfl, v.origin_begun, by rintro _ ⟨⟩; exact window_key cut⟩
  · rw [eq] at polls
    cases cut : v.window a <;> rw [cut] at polls <;> cases polls
    exact ⟨rfl, rfl, by rintro _ ⟨⟩; exact window_key cut⟩
  · rw [eq] at polls
    cases polls
    exact ⟨rfl, rfl, by rintro _ ⟨⟩⟩

end LiveView

namespace Viewing

/-- All windows of a view are cut at one key from one timeline. -/
structure Bears (key : WindowKey) (origin : WindowOrigin) (s : Viewing) : Prop where
  viewKey : s.view.key = key
  viewOrigin : s.view.origin = origin
  shown : ∀ w ∈ s.shown, w.key = key ∧ w.origin = origin

variable {key : WindowKey} {origin : WindowOrigin} {s t : Viewing} {events : List Event}

private theorem Bears.play (h : s.Bears key origin) {e : Event} (plays : s.play e = .ok t) :
    t.Bears key origin := by
  cases e with
  | change c =>
    cases plays
    exact ⟨h.viewKey, h.viewOrigin, h.shown⟩
  | poll =>
    rw [Viewing.play] at plays
    cases polls : s.view.poll s.account with
    | error fault => rw [polls] at plays; cases plays
    | ok polled =>
      rw [polls] at plays
      cases plays
      obtain ⟨sameKey, sameOrigin, windows⟩ := LiveView.poll_keeps polls
      refine ⟨sameKey.trans h.viewKey, sameOrigin.trans h.viewOrigin, fun w hw => ?_⟩
      rcases List.mem_append.mp hw with old | new
      · exact h.shown w old
      · obtain ⟨cutAt, cutFrom⟩ := windows w (Option.mem_toList.mp new)
        exact ⟨cutAt.trans h.viewKey, cutFrom.trans h.viewOrigin⟩

theorem Bears.run (h : s.Bears key origin) (runs : s.run events = .ok t) : t.Bears key origin :=
  foldlM_invariant (fun _ _ _ bears plays => bears.play plays) runs h

private theorem Bears.exists_run (h : s.Bears key .scheduled) (events : List Event) :
    ∃ t, s.run events = .ok t := by
  cases runs : s.run events with
  | ok t => exact ⟨t, rfl⟩
  | error fault =>
    obtain ⟨front, -, u, -, played, stops⟩ := exists_poll_of_run_eq_error runs
    obtain ⟨w, cut⟩ :=
      LiveView.exists_window_of_scheduled (h.run played).viewOrigin u.account
    rw [LiveView.window_eq_error_of_poll stops] at cut
    cases cut

private theorem shown_ne_nil_of_poll (begins : s.view.started = false ∨ s.shown ≠ [])
    (polls : s.play .poll = .ok t) : t.shown ≠ [] := by
  rw [play] at polls
  cases polled : s.view.poll s.account with
  | error fault => rw [polled] at polls; cases polls
  | ok result =>
    rw [polled] at polls
    cases polls
    rcases begins with unstarted | some
    · rw [LiveView.poll_of_unstarted unstarted] at polled
      cases cut : s.view.window s.account <;> rw [cut] at polled <;> cases polled
      simp
    · exact List.append_ne_nil_of_left_ne_nil some _

private theorem shown_ne_nil_of_run (begins : s.view.started = false ∨ s.shown ≠ [])
    (polled : .poll ∈ events ∨ s.shown ≠ []) (runs : s.run events = .ok t) : t.shown ≠ [] := by
  induction events generalizing s with
  | nil =>
    cases runs
    exact polled.resolve_left (by simp)
  | cons e later ih =>
    rw [run, List.foldlM_cons] at runs
    cases e with
    | change c =>
      refine ih ?_ ?_ runs
      · exact begins
      · exact polled.imp_left fun mem => (List.mem_cons.mp mem).resolve_left (by simp)
    | poll =>
      cases polls : s.play .poll with
      | error fault => rw [polls] at runs; cases runs
      | ok next =>
        rw [polls] at runs
        have some := shown_ne_nil_of_poll begins polls
        exact ih (.inr some) (.inr some) runs

theorem Bears.shown_run_ne {t : Viewing} {other : WindowKey} (h : s.Bears key origin)
    (begins : s.view.started = false ∨ s.shown ≠ []) (scheduled : t.Bears other .scheduled)
    (distinct : origin ≠ .scheduled) (polled : .poll ∈ events) :
    (s.run events).map (·.shown) ≠ (t.run events).map (·.shown) := by
  intro same
  obtain ⟨t', runs'⟩ := scheduled.exists_run events
  rw [runs'] at same
  cases runs : s.run events with
  | error fault => rw [runs] at same; cases same
  | ok s' =>
    rw [runs] at same
    have shown : s'.shown = t'.shown := Except.ok.inj same
    have some := shown_ne_nil_of_run begins (.inl polled) runs
    obtain ⟨w, hw⟩ := List.exists_mem_of_ne_nil _ some
    have first := ((h.run runs).shown w hw).2
    have second := ((scheduled.run runs').shown w (shown ▸ hw)).2
    exact distinct (first.symm.trans second)

end Viewing

end PeerPanel
