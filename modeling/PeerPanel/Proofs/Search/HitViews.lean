import PeerPanel.Panel.Basic
import PeerPanel.Proofs.Account.Viewing
import PeerPanel.Proofs.Search.Scene

/-!
Views of what a search has found.

The first window of such a view is cut from the hits that the search remembers, and these may be
older than the view: they are those of the moment at which the query was last searched for. Every
later window is cut from a new search. So the view catches up with the first change that concerns
it, and until then it shows what the query had found then (`Viewed.hits_view_catches_up`). That a
view which nothing has happened to can be out of date is `Viewed.remembered_hits_shown`.
-/

set_option autoImplicit false
set_option relaxedAutoImplicit false

namespace PeerPanel

open Account (Change)
open Search (Query Hits Saved Moment Debounce Scene)

namespace Search

def Query.key (q : Query) (around : TimelineId) : WindowKey :=
  { peer := q.peer, migrated := q.migrated, around, kind := q.kind }

/-- The window over what a query finds in an account. -/
def hitWindow (a : Account) (q : Query) (around : TimelineId) (before after : Nat) :
    Except Fault MediaWindow :=
  (run a q).merged.map (.cut (q.key around) .search · before after)

/-- A view of a query whose first window is cut from known positions, if there are any. -/
def Query.view (q : Query) (known : Option (List TimelineId)) (around : TimelineId)
    (before after place : Nat) : LiveView :=
  { source := .search q.text known, key := q.key around, before, after, place }

section

variable (q : Query) (around : TimelineId) (before after place : Nat)

private theorem window_view_some (known : List TimelineId) (a : Account) :
    (q.view (some known) around before after place).window a =
      .ok (.cut (q.key around) .search known before after) := rfl

private theorem window_view_none (a : Account) :
    (q.view none around before after place).window a = hitWindow a q around before after := by
  show ((run a q).merged >>= _) = _
  rw [hitWindow]
  cases (run a q).merged <;> rfl

private theorem window_begun_view (known : Option (List TimelineId)) (a : Account) :
    (q.view known around before after place).begun.window a =
      hitWindow a q around before after := by
  rw [← window_view_none q around before after place]
  rfl

private theorem concerns_view (known : Option (List TimelineId)) (n : MediaNotice) :
    (q.view known around before after place).concerns n = n.isAbout false (q.key around) := by
  rw [LiveView.concerns_eq]
  rfl

end

theorem searchView_of_known {s : Debounce} {h : Hits} (a : Account) (around : TimelineId)
    (before after : Nat) (known : s.finder.hits? s.applied = some h) :
    Panel.searchView s a around before after =
      h.merged.map fun first =>
        s.applied.view (some first) around before after a.mediaNotices.place := by
  rw [Panel.searchView, known, Account.searchView]
  show (Option.some <$> h.merged >>= _) = _
  cases h.merged <;> rfl

namespace Scene

variable {s : Scene}

/-- A search that starts from one put aside. -/
def begin (a : Account) (delay : Nat) (saved : Saved) (now : Moment) : Scene :=
  { account := a, search := .ofSaved a delay saved, now }

theorem hits?_begin {saved : Saved} (unsaved : saved.peerHits = none) (a : Account) (delay : Nat)
    (now : Moment) (q : Query) :
    (begin a delay saved now).hits? q =
      if q = saved.query then some (Search.run a q) else none := by
  have restored : (begin a delay saved now).hits? q =
      if q = saved.query then some (saved.found a) else none :=
    Finder.hits?_restore a q saved
  rw [restored, Saved.found, unsaved]
  split
  · next same => rw [same]
  · rfl

theorem sound_begin {saved : Saved} (unsaved : saved.peerHits = none) (a : Account) (delay : Nat)
    (now : Moment) : (begin a delay saved now).Sound where
  held := ⟨none, Debounce.holds_ofSaved ..⟩
  remembered := by
    have applied : (begin a delay saved now).search.applied = saved.query := rfl
    rw [hits?_begin unsaved, applied, if_pos rfl]
    rfl

theorem coherent_run (coherent : s.account.Coherent) (moves : List Move) :
    (s.run moves).account.Coherent := by
  induction moves generalizing s with
  | nil => exact coherent
  | cons m later ih =>
    refine ih ?_
    cases m with
    | change c => exact coherent.apply c
    | _ => exact coherent

/-- What a view of the account sees of a move. -/
def Move.seen : Move → Option Viewing.Event
  | change c => some (.change c)
  | _ => none

private theorem viewing_run_seen (s : Scene) (moves : List Move) (view : LiveView) :
    Viewing.run { account := s.account, view } (moves.filterMap Move.seen) =
      .ok { account := (s.run moves).account, view } := by
  induction moves generalizing s with
  | nil => rfl
  | cons m later ih =>
    have rest := ih (s.play m)
    cases m <;> exact rest

end Scene

section

variable {q : Query} {around : TimelineId} {before after : Nat}

private theorem hitWindow_of_unpublished {s t : Viewing} {events : List Viewing.Event}
    (before after : Nat) (runs : s.run events = .ok t) (coherent : s.account.Coherent)
    (quiet : Viewing.published (·.isAbout false (q.key around)) s.account events = 0) :
    hitWindow t.account q around before after = hitWindow s.account q around before after := by
  rw [← window_view_none q around before after 0, ← window_view_none q around before after 0]
  refine Viewing.window_run_of_unpublished coherent runs ?_
  rwa [funext (concerns_view q around before after 0 none)]

theorem Scene.hitWindow_run_of_unpublished {s : Scene} (coherent : s.account.Coherent)
    (moves : List Move)
    (quiet : Viewing.published (·.isAbout false (q.key around)) s.account
      (moves.filterMap Move.seen) = 0) :
    hitWindow (s.run moves).account q around before after =
      hitWindow s.account q around before after := by
  have seen := s.viewing_run_seen moves (q.view none around before after 0)
  have same := hitWindow_of_unpublished before after seen coherent quiet
  exact same

end

end Search

/-- A search in its account, a view that was opened on it, and the windows that this has yielded. -/
structure Viewed where
  scene : Scene
  view : LiveView
  shown : List MediaWindow := []

inductive Viewed.Event
  | move (m : Scene.Move)
  | poll

namespace Viewed

def play (s : Viewed) : Event → Except Fault Viewed
  | .move m => .ok { s with scene := s.scene.play m }
  | .poll => (s.view.poll s.scene.account).map fun polled =>
    { s with view := polled.2, shown := s.shown ++ polled.1.toList }

def run (s : Viewed) (events : List Event) : Except Fault Viewed := events.foldlM play s

def viewing (s : Viewed) : Viewing :=
  { account := s.scene.account, view := s.view, shown := s.shown }

def Event.seen : Event → Option Viewing.Event
  | move m => m.seen
  | poll => some .poll

variable {s t : Viewed} {events : List Event}

private theorem viewing_run (s : Viewed) (events : List Event) :
    (s.run events).map viewing = s.viewing.run (events.filterMap Event.seen) := by
  induction events generalizing s with
  | nil => rfl
  | cons e later ih =>
    rw [run, List.foldlM_cons]
    cases e with
    | move m =>
      have moved := ih { s with scene := s.scene.play m }
      cases m <;> exact moved
    | poll =>
      show (s.play .poll >>= (run · later)).map viewing =
        (s.viewing.play .poll >>= (Viewing.run · (later.filterMap Event.seen)))
      unfold play Viewing.play
      show ((s.view.poll s.scene.account).map _ >>= (run · later)).map viewing =
        (s.view.poll s.scene.account).map _ >>= _
      cases s.view.poll s.scene.account with
      | error f => rfl
      | ok polled => exact ih _

private theorem viewing_run_eq_ok (runs : s.run events = .ok t) :
    s.viewing.run (events.filterMap Event.seen) = .ok t.viewing := by
  rw [← viewing_run, runs]
  rfl

section

variable {q : Query} {known : List TimelineId} {around : TimelineId} {before after place : Nat}

private theorem window_of_follows
    (h : Viewing.Follows (q.view (some known) around before after place) s.viewing)
    (some : s.shown ≠ []) :
    s.view.window s.scene.account = Search.hitWindow s.scene.account q around before after := by
  have same : s.view = _ := h.started some
  rw [same, ← Search.window_begun_view q around before after place (Option.some known)]
  rfl

private theorem hitWindow_eq_error_of_poll
    (h : Viewing.Follows (q.view (some known) around before after place) s.viewing) {f : Fault}
    (fails : s.view.poll s.scene.account = .error f) :
    Search.hitWindow s.scene.account q around before after = .error f := by
  have failed := LiveView.window_eq_error_of_poll fails
  by_cases none : s.shown = []
  · have same : s.view = _ := h.unstarted none
    rw [same, Search.window_view_some] at failed
    cases failed
  · rwa [window_of_follows h none] at failed

private theorem last_of_pending
    (h : Viewing.Follows (q.view (some known) around before after place) s.viewing)
    {rest : LiveView} (pends : s.view.poll s.scene.account = .ok (none, rest)) :
    ∃ w, s.shown.getLast? = some w ∧
      (Search.hitWindow s.scene.account q around before after = .ok w ∨
        (∀ n ∈ s.scene.account.mediaNotices.since place, n.isAbout false (q.key around) = false) ∧
          w = .cut (q.key around) .search known before after) := by
  obtain ⟨⟨w, last, present⟩, -⟩ := h.drained rfl pends
  refine ⟨w, last, ?_⟩
  rw [Search.window_begun_view, Search.window_view_some] at present
  refine present.imp_right fun ⟨quiet, first⟩ => ⟨fun n hn => ?_, (Except.ok.inj first).symm⟩
  rw [← Search.concerns_view q around before after place (some known)]
  exact quiet n hn

end

private theorem exists_poll_of_run_eq_error {f : Fault} (fails : s.run events = .error f) :
    ∃ ahead behind u, events = ahead ++ .poll :: behind ∧ s.run ahead = .ok u ∧
      u.view.poll u.scene.account = .error f := by
  obtain ⟨ahead, e, behind, u, split, runs, stops⟩ := exists_of_foldlM_eq_error fails
  cases e with
  | move m => cases stops
  | poll =>
    refine ⟨ahead, behind, u, split, runs, ?_⟩
    rw [play] at stops
    cases h : u.view.poll u.scene.account <;> rw [h] at stops <;> cases stops
    rfl

private theorem run_of_known {opening : Scene} (coherent : opening.account.Coherent) (q : Query)
    (known : List TimelineId) (around : TimelineId) (before after : Nat) (events : List Event) :
    let view := q.view (some known) around before after opening.account.mediaNotices.place
    let window (a : Account) := Search.hitWindow a q around before after
    (∃ s, run { scene := opening, view } events = .ok s ∧
      (s.shown ≠ [] → ∀ w rest, s.view.poll s.scene.account = .ok (some w, rest) →
        window s.scene.account = .ok w) ∧
      ∀ rest, s.view.poll s.scene.account = .ok (none, rest) →
        ∃ w, s.shown.getLast? = some w ∧
          (window s.scene.account = .ok w ∨
            Viewing.published (·.isAbout false (q.key around)) opening.account
                (events.filterMap Event.seen) = 0 ∧
              window s.scene.account = window opening.account ∧
              w = .cut (q.key around) .search known before after)) ∨
    ∃ ahead behind s f, events = ahead ++ .poll :: behind ∧
      run { scene := opening, view } ahead = .ok s ∧
      s.view.poll s.scene.account = .error f ∧ window s.scene.account = .error f := by
  intro view window
  have follows : Viewing.Follows view (viewing { scene := opening, view }) := .begin coherent rfl
  cases runs : run { scene := opening, view } events with
  | error f =>
    right
    obtain ⟨ahead, behind, s, splits, reaches, stops⟩ := exists_poll_of_run_eq_error runs
    have reached := follows.run rfl (viewing_run_eq_ok reaches)
    exact ⟨ahead, behind, s, f, splits, reaches, stops, hitWindow_eq_error_of_poll reached stops⟩
  | ok s =>
    left
    have seen := viewing_run_eq_ok runs
    have reached := follows.run rfl seen
    refine ⟨s, rfl, fun some w rest yields => ?_, fun rest pends => ?_⟩
    · have yielded := LiveView.window_eq_ok_of_poll yields
      rwa [window_of_follows reached some] at yielded
    · obtain ⟨w, shown, present⟩ := last_of_pending reached pends
      refine ⟨w, shown, present.imp_right fun ⟨quiet, same⟩ => ?_⟩
      -- all that was published since the opening has been read, and none of it was about the hits
      have sent := Viewing.countP_since_run (·.isAbout false (q.key around)) seen follows.inside
      have atOpening : opening.account.mediaNotices.since view.place = [] := Feed.since_place _
      have none : (s.scene.account.mediaNotices.since view.place).countP
          (·.isAbout false (q.key around)) = 0 :=
        List.countP_eq_zero.mpr fun n hn => by simp [quiet n hn]
      have unpublished : Viewing.published (·.isAbout false (q.key around)) opening.account
          (events.filterMap Event.seen) = 0 := by
        change _ = (opening.account.mediaNotices.since view.place).countP _ + _ at sent
        rw [atOpening, List.countP_nil, Nat.zero_add] at sent
        exact sent.symm.trans none
      have kept := Search.hitWindow_of_unpublished before after seen coherent unpublished
      exact ⟨unpublished, kept, same⟩

/-- Whatever happens to a search and its account before a view of the hits is opened and after:
the view starts with the window over what its query had found when it was last searched for, and
every later window is the one over what the query finds then. When the view has nothing to yield,
its last window is the one over what the query finds, or it is the first one still, and nothing that
concerns it has happened since it was opened; and if nothing had happened between the search and
the opening either, then that is the one over what the query finds. The view stops only at a poll
where there is no such window. -/
theorem hits_view_catches_up (earlier : List Change) (delay : Nat) (saved : Saved)
    (unsaved : saved.peerHits = none) (now : Moment) (moves : List Scene.Move)
    (typed :
      ((Scene.begin (Account.after earlier) delay saved now).run moves).search.applied.text ≠ "")
    (around : TimelineId) (before after : Nat) (events : List Event) :
    let start := Scene.begin (Account.after earlier) delay saved now
    let opening := start.run moves
    let q := opening.search.applied
    let window (a : Account) := Search.hitWindow a q around before after
    let concerns (n : MediaNotice) := n.isAbout false (q.key around)
    ∃ front back, moves = front ++ back ∧ start.SearchedLast q front back ∧
      let searched := (start.run front).account
      ((∃ f, Panel.searchView opening.search opening.account around before after = .error f ∧
          window searched = .error f) ∨
        ∃ view first,
          Panel.searchView opening.search opening.account around before after = .ok view ∧
          window searched = .ok first ∧
          (∀ a, (view.poll a).map (·.1) = .ok (some first)) ∧
          ((∃ s, run { scene := opening, view } events = .ok s ∧
              (s.shown ≠ [] → ∀ w rest, s.view.poll s.scene.account = .ok (some w, rest) →
                window s.scene.account = .ok w) ∧
              ∀ rest, s.view.poll s.scene.account = .ok (none, rest) →
                ∃ w, s.shown.getLast? = some w ∧
                  (window s.scene.account = .ok w ∨
                    Viewing.published concerns opening.account (events.filterMap Event.seen) = 0 ∧
                      w = first) ∧
                  (Viewing.published concerns searched (back.filterMap Scene.Move.seen) = 0 →
                    window s.scene.account = .ok w)) ∨
            ∃ ahead behind s f, events = ahead ++ .poll :: behind ∧
              run { scene := opening, view } ahead = .ok s ∧
              s.view.poll s.scene.account = .error f ∧ window s.scene.account = .error f)) := by
  intro start opening q window concerns
  have sound := Scene.sound_begin unsaved (Account.after earlier) delay now
  obtain ⟨h, known⟩ := Option.isSome_iff_exists.mp (sound.run moves).remembered
  have started : ∀ g, start.hits? q = some g → g = Search.run start.account q := by
    intro g hg
    rw [Scene.hits?_begin unsaved] at hg
    split at hg
    · exact (Option.some.inj hg).symm
    · cases hg
  obtain ⟨front, back, split, last⟩ := Scene.exists_searchedLast sound typed started moves known
  refine ⟨front, back, split, last, ?_⟩
  intro searched
  have found : h = Search.run searched q := by
    have remembered := last.remembered back (List.prefix_refl back)
    rw [← split] at remembered
    exact Option.some.inj (known.symm.trans remembered)
  have opens := Search.searchView_of_known opening.account around before after known
  rw [found] at opens
  cases merged : (Search.run searched q).merged with
  | error f =>
    left
    refine ⟨f, by rw [opens, merged]; rfl, ?_⟩
    show Search.hitWindow searched q around before after = .error f
    rw [Search.hitWindow, merged]
    rfl
  | ok positions =>
    right
    rw [merged] at opens
    have first : window searched = .ok (.cut (q.key around) .search positions before after) := by
      show Search.hitWindow searched q around before after = _
      rw [Search.hitWindow, merged]
      rfl
    refine ⟨_, _, opens, first, fun a => rfl, ?_⟩
    have coherentThen : searched.Coherent :=
      Scene.coherent_run (Account.coherent_after earlier) front
    have coherent : opening.account.Coherent :=
      Scene.coherent_run (Account.coherent_after earlier) moves
    rcases run_of_known coherent q positions around before after events with
      ⟨s, runs, later, pending⟩ | stops
    · refine .inl ⟨s, runs, later, fun rest pends => ?_⟩
      obtain ⟨w, shown, present⟩ := pending rest pends
      refine ⟨w, shown, present.imp_right fun ⟨quiet, _, same⟩ => ⟨quiet, same⟩, fun quiet => ?_⟩
      rcases present with now | ⟨-, kept, rfl⟩
      · exact now
      · -- the remembered hits are those of the present if nothing has happened since the search
        have arrived : opening = (start.run front).run back := by
          show start.run moves = _
          rw [split]
          exact List.foldl_append
        have between : window ((start.run front).run back).account = window searched :=
          Scene.hitWindow_run_of_unpublished coherentThen back quiet
        rw [← arrived] at between
        exact kept.trans (between.trans first)
    · exact .inr stops

/-- The events of `lateFind`: a text is applied, and then a message is stored that holds it. -/
def lateMoves : List Scene.Move :=
  [.applyNow ⟨.file, ⟨2⟩, none, "plan"⟩,
    .change (.message { id := ⟨⟨2⟩, ⟨4⟩⟩, text := "plan", attachment := some .file })]

def lateFind : Scene :=
  (Scene.begin (Account.after []) 200 { query := ⟨.file, ⟨2⟩, none, ""⟩ } ⟨0, 0⟩).run lateMoves

/-- The view of what was found before the message was stored, which was published by the time the
view is opened. -/
def lateView : LiveView :=
  { source := .search "plan" (some [])
    key := { peer := ⟨2⟩, migrated := none, around := ⟨0⟩, kind := .file }
    before := 10
    after := 10
    place := 1 }

private theorem searchView_lateFind :
    Panel.searchView lateFind.search lateFind.account ⟨0⟩ 10 10 = .ok lateView := by
  decide +kernel

/-- The view of `lateFind` starts with what was found before the message was stored. -/
theorem late_find_searched_last :
    ∃ front back view first, lateMoves = front ++ back ∧
      (Scene.begin (Account.after []) 200 { query := ⟨.file, ⟨2⟩, none, ""⟩ } ⟨0, 0⟩).SearchedLast
        ⟨.file, ⟨2⟩, none, "plan"⟩ front back ∧
      Panel.searchView lateFind.search lateFind.account ⟨0⟩ 10 10 = .ok view ∧
      (view.poll lateFind.account).map (·.1) = .ok (some first) := by
  obtain ⟨front, back, split, last, ⟨f, refused, -⟩ | ⟨view, first, opens, -, polls, -⟩⟩ :=
    hits_view_catches_up [] 200 { query := ⟨.file, ⟨2⟩, none, ""⟩ } rfl ⟨0, 0⟩ lateMoves
      (by decide +kernel) ⟨0⟩ 10 10 [.poll]
  · have conflict := refused.symm.trans searchView_lateFind
    cases conflict
  · have applied : lateFind.search.applied = ⟨.file, ⟨2⟩, none, "plan"⟩ := by decide +kernel
    rw [← applied]
    exact ⟨front, back, view, first, split, last, opens, polls lateFind.account⟩

/-- A view that has nothing more to yield can be out of date: it was opened on hits that are older
than a message that was stored since, and has read everything that was published since. -/
theorem remembered_hits_shown :
    ∃ view s rest, Panel.searchView lateFind.search lateFind.account ⟨0⟩ 10 10 = .ok view ∧
      run { scene := lateFind, view } [.poll] = .ok s ∧
      s.view.poll s.scene.account = .ok (none, rest) ∧
      s.shown.map (·.ids) = [[]] ∧
      (Search.hitWindow s.scene.account lateFind.search.applied ⟨0⟩ 10 10).map (·.ids) =
        .ok [⟨4⟩] := by
  refine ⟨lateView, _, lateView.begun, searchView_lateFind, rfl, ?_, ?_, ?_⟩
  · show lateView.begun.poll lateFind.account = .ok (none, lateView.begun)
    decide +kernel
  · decide +kernel
  · decide +kernel

end Viewed

end PeerPanel
