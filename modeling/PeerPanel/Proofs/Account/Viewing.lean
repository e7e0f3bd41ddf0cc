import PeerPanel.Account.LiveView
import PeerPanel.Proofs.Account.Notices

/-!
A live view and the account that it follows, over time.

What a view shows depends on the messages of its peers in one timeline, and changes only with a
notice that concerns it (`LiveView.window_apply_of_quiet`). From this one invariant follows for
every sequence of changes and polls (`Viewing.Follows`): a view that has yielded a window is either
behind, in which case the next poll yields another one, or its last window is the present one. The
first window of a search stands apart, since it is cut from hits that were known when the view was
opened.
-/

set_option autoImplicit false
set_option relaxedAutoImplicit false

namespace PeerPanel

/-- Whether a notice is about a timeline of the peers of a key. Only the history has an earlier
chat. -/
def MediaNotice.isAbout (n : MediaNotice) (scheduled : Bool) (key : WindowKey) : Bool :=
  n.scheduled = scheduled && (n.peer = key.peer || (!scheduled && some n.peer = key.migrated))

theorem Account.mergedMedia_congr {a b : Account} {p : PeerId} {q : Option PeerId}
    (same : ∀ r, r = p ∨ some r = q → ∀ k, b.history.listed r k = a.history.listed r k)
    (k : MediaKind) : b.mergedMedia p q k = a.mergedMedia p q k := by
  have own := same p (.inl rfl) k
  cases q with
  | none => simp only [mergedMedia, own]
  | some q =>
    have earlier := same q (.inr rfl) k
    simp only [mergedMedia, own, earlier]

theorem Account.searchMedia_congr {a b : Account} {p : PeerId} {k : MediaKind}
    (listed : b.history.listed p k = a.history.listed p k)
    (stored : ∀ n, b.message? ⟨p, n⟩ = a.message? ⟨p, n⟩) (text : String) :
    b.searchMedia p k text = a.searchMedia p k text := by
  simp only [searchMedia, listed, stored]

private theorem Search.run_congr {a b : Account} {q : Query}
    (same : ∀ r, r = q.peer ∨ some r = q.migrated →
      b.searchMedia r q.kind q.text = a.searchMedia r q.kind q.text) : run b q = run a q := by
  have own := same q.peer (.inl rfl)
  unfold run
  rw [own]
  cases h : q.migrated with
  | none => rfl
  | some earlier => rw [Option.map_some, Option.map_some, same earlier (.inr h.symm)]

namespace LiveView

open Account (Change)

def isScheduled (v : LiveView) : Bool :=
  match v.source with
  | .scheduled => true
  | _ => false

theorem concerns_eq (v : LiveView) (n : MediaNotice) :
    v.concerns n = n.isAbout v.isScheduled v.key := by
  unfold concerns isScheduled MediaNotice.isAbout
  cases v.source <;> cases n.scheduled <;> simp

private theorem concerns_begun (v : LiveView) (n : MediaNotice) :
    v.begun.concerns n = v.concerns n := by
  unfold concerns begun
  cases v.source <;> rfl

theorem isSome_accepts_missed (v : LiveView) (count : Nat) :
    (v.accepts (.missed count)).isSome := rfl

private theorem accepts_notice_eq_none_iff {v : LiveView} {n : MediaNotice} :
    v.accepts (.notice n) = none ↔ v.concerns n = false := by
  cases h : v.concerns n <;> simp [accepts, h]

variable {v : LiveView} {a : Account} {c : Change}

theorem window_apply_of_quiet (coherent : a.Coherent)
    (quiet : ∀ n ∈ c.mediaNotice? a, v.concerns n = false) :
    v.window (a.apply c) = v.window a := by
  suffices v.positions (a.apply c) = v.positions a by rw [window, window, this]
  have unnamed : ∀ r, r = v.key.peer ∨ (v.isScheduled = false ∧ some r = v.key.migrated) →
      c.mediaNotice? a ≠ some ⟨r, v.isScheduled⟩ := by
    intro r hr named
    have refused := quiet _ named
    rw [concerns_eq, MediaNotice.isAbout] at refused
    rcases hr with rfl | ⟨regular, earlier⟩
    · simp at refused
    · simp [regular, earlier] at refused
  unfold positions
  cases hs : v.source with
  | scheduled =>
    have scheduled : v.isScheduled = true := by rw [isScheduled, hs]
    rw [scheduled] at unnamed
    have listed := Account.listed_apply_of_quiet coherent (unnamed v.key.peer (.inl rfl)) v.key.kind
    exact congrArg (fun s : MsgSet => Except.ok (s.ids.map TimelineId.ofMain)) listed
  | history =>
    have regular : v.isScheduled = false := by rw [isScheduled, hs]
    simp only [regular, true_and] at unnamed
    exact Account.mergedMedia_congr
      (fun r hr => Account.listed_apply_of_quiet coherent (unnamed r hr)) v.key.kind
  | search text known =>
    cases known with
    | some known => rfl
    | none =>
      have regular : v.isScheduled = false := by rw [isScheduled, hs]
      simp only [regular, true_and] at unnamed
      refine congrArg Search.Hits.merged (Search.run_congr fun r hr => ?_)
      exact Account.searchMedia_congr (Account.listed_apply_of_quiet coherent (unnamed r hr) _)
        (Account.get?_timeline_apply_of_quiet (unnamed r hr)) _

theorem poll_cases (v : LiveView) (a : Account) :
    (v.started = false ∧ v.poll a = (v.window a).map fun w => (some w, v.begun)) ∨
    (v.started = true ∧ ∃ place, a.mediaNotices.next? v.accepts v.place = (some (), place) ∧
      v.poll a = (v.window a).map fun w => (some w, { v with place })) ∨
    (v.started = true ∧ ∃ place, a.mediaNotices.next? v.accepts v.place = (none, place) ∧
      v.poll a = .ok (none, { v with place })) := by
  unfold poll
  cases v.started with
  | false =>
    refine .inl ⟨rfl, ?_⟩
    cases v.window a <;> rfl
  | true =>
    right
    rcases met : a.mediaNotices.next? v.accepts v.place with ⟨_ | _, place⟩
    · exact .inr ⟨rfl, place, rfl, rfl⟩
    · refine .inl ⟨rfl, place, rfl, ?_⟩
      cases v.window a <;> rfl

theorem window_eq_ok_of_poll {w : MediaWindow} {next : LiveView}
    (yields : v.poll a = .ok (some w, next)) : v.window a = .ok w := by
  rcases v.poll_cases a with ⟨-, eq⟩ | ⟨-, place, -, eq⟩ | ⟨-, place, -, eq⟩
  · rw [eq] at yields
    cases h : v.window a <;> rw [h] at yields <;> cases yields
    rfl
  · rw [eq] at yields
    cases h : v.window a <;> rw [h] at yields <;> cases yields
    rfl
  · rw [eq] at yields
    cases yields

theorem window_eq_error_of_poll {f : Fault} (failed : v.poll a = .error f) :
    v.window a = .error f := by
  rcases v.poll_cases a with ⟨-, eq⟩ | ⟨-, place, -, eq⟩ | ⟨-, place, -, eq⟩
  · rw [eq] at failed
    cases h : v.window a <;> rw [h] at failed <;> cases failed
    rfl
  · rw [eq] at failed
    cases h : v.window a <;> rw [h] at failed <;> cases failed
    rfl
  · rw [eq] at failed
    cases failed

end LiveView

section

variable {σ ε : Type} {play : σ → ε → Except Fault σ} {s t : σ} {events : List ε}

theorem foldlM_invariant {P : σ → Prop} (step : ∀ s e t, P s → play s e = .ok t → P t)
    (runs : events.foldlM play s = .ok t) (first : P s) : P t := by
  induction events generalizing s with
  | nil =>
    cases runs
    exact first
  | cons e later ih =>
    rw [List.foldlM_cons] at runs
    cases plays : play s e with
    | error f => rw [plays] at runs; cases runs
    | ok next =>
      rw [plays] at runs
      exact ih runs (step s e next first plays)

theorem exists_of_foldlM_eq_error {f : Fault} (fails : events.foldlM play s = .error f) :
    ∃ front e back u, events = front ++ e :: back ∧ front.foldlM play s = .ok u ∧
      play u e = .error f := by
  induction events generalizing s with
  | nil => cases fails
  | cons e later ih =>
    rw [List.foldlM_cons] at fails
    cases plays : play s e with
    | ok next =>
      rw [plays] at fails
      obtain ⟨front, e', back, u, split, runs, stops⟩ := ih fails
      refine ⟨e :: front, e', back, u, by rw [split]; rfl, ?_, stops⟩
      rw [List.foldlM_cons, plays]
      exact runs
    | error g =>
      rw [plays] at fails
      cases fails
      exact ⟨[], e, later, s, rfl, rfl, plays⟩

end

open Account (Change)

inductive Viewing.Event
  | change (c : Change)
  | poll

/-- An account, a view of it, and the windows that the view has yielded. -/
structure Viewing where
  account : Account
  view : LiveView
  shown : List MediaWindow := []

namespace Viewing

def play (s : Viewing) : Event → Except Fault Viewing
  | .change c => .ok { s with account := s.account.apply c }
  | .poll => (s.view.poll s.account).map fun polled =>
    { s with view := polled.2, shown := s.shown ++ polled.1.toList }

/-- Events one after the other, up to a poll that fails. -/
def run (s : Viewing) (events : List Event) : Except Fault Viewing := events.foldlM play s

def unread (s : Viewing) : List MediaNotice := s.account.mediaNotices.since s.view.place

/-- The next poll yields a window: some notices were missed, or an unread one concerns the view. -/
def Behind (s : Viewing) : Prop :=
  s.view.place < s.account.mediaNotices.oldest ∨ ∃ n ∈ s.unread, s.view.concerns n = true

/-- The last window is the present one, or it is the first one still, and nothing has happened since
that concerns the view. -/
def UpToDate (opened : LiveView) (s : Viewing) : Prop :=
  ∃ w, s.shown.getLast? = some w ∧
    (opened.begun.window s.account = .ok w ∨
      (∀ n ∈ s.account.mediaNotices.since opened.place, opened.concerns n = false) ∧
        opened.window s.account = .ok w)

/-- A view that has come along from the state in which it was opened. -/
structure Follows (opened : LiveView) (s : Viewing) : Prop where
  coherent : s.account.Coherent
  forward : opened.place ≤ s.view.place
  inside : s.view.place ≤ s.account.mediaNotices.place
  unstarted : s.shown = [] → s.view = opened
  started : s.shown ≠ [] → s.view = { opened.begun with place := s.view.place }
  fresh : s.shown ≠ [] → s.Behind ∨ UpToDate opened s

namespace Follows

variable {opened : LiveView} {s : Viewing}

theorem begin {a : Account} (coherent : a.Coherent)
    (present : opened.place = a.mediaNotices.place) :
    Follows opened { account := a, view := opened } where
  coherent := coherent
  forward := Nat.le_refl _
  inside := Nat.le_of_eq present
  unstarted _ := rfl
  started some := absurd rfl some
  fresh some := absurd rfl some

theorem concerns_eq (h : Follows opened s) (n : MediaNotice) :
    s.view.concerns n = opened.concerns n := by
  by_cases none : s.shown = []
  · rw [h.unstarted none]
  · rw [h.started none, ← opened.concerns_begun]
    rfl

private theorem behind_send (h : Follows opened s) {a : Account} (n : MediaNotice)
    (sent : a.mediaNotices = s.account.mediaNotices.send n)
    (why : s.Behind ∨ s.view.concerns n = true) : Behind { s with account := a } := by
  have unread : a.mediaNotices.since s.view.place = s.unread ++ [n] := by
    rw [sent]
    exact Feed.since_send h.inside n
  rcases why with (missed | ⟨m, mem, concerns⟩) | concerns
  · left
    rw [sent]
    exact Nat.lt_of_lt_of_le missed (Feed.oldest_send _ n)
  · exact .inr ⟨m, by rw [Viewing.unread, unread]; exact List.mem_append_left _ mem, concerns⟩
  · exact .inr ⟨n, by rw [Viewing.unread, unread]; simp, concerns⟩

theorem change (h : Follows opened s) (c : Change) :
    Follows opened { s with account := s.account.apply c } := by
  have sent := s.account.mediaNotices_apply c
  have kept (quiet : ∀ n ∈ c.mediaNotice? s.account, opened.concerns n = false) :
      opened.begun.window (s.account.apply c) = opened.begun.window s.account ∧
        opened.window (s.account.apply c) = opened.window s.account := by
    refine ⟨LiveView.window_apply_of_quiet h.coherent fun n hn => ?_,
      LiveView.window_apply_of_quiet h.coherent quiet⟩
    rw [opened.concerns_begun]
    exact quiet n hn
  cases published : c.mediaNotice? s.account with
  | none =>
    rw [published] at sent kept
    obtain ⟨begun, first⟩ := kept (by simp)
    refine ⟨h.coherent.apply c, h.forward, ?_, h.unstarted, h.started, fun some => ?_⟩
    · rw [sent]
      exact h.inside
    · rcases h.fresh some with behind | ⟨w, last, present⟩
      · left
        rw [Behind, Viewing.unread, sent]
        exact behind
      · right
        refine ⟨w, last, ?_⟩
        rw [sent, begun, first]
        exact present
  | some n =>
    rw [published] at sent kept
    refine ⟨h.coherent.apply c, h.forward, ?_, h.unstarted, h.started, fun some => ?_⟩
    · rw [sent, Feed.place_send]
      exact Nat.le_succ_of_le h.inside
    · by_cases why : s.Behind ∨ s.view.concerns n = true
      · exact .inl (h.behind_send n sent why)
      · -- a notice that does not concern the view leaves its window as it was
        right
        obtain ⟨notBehind, unconcerned⟩ := not_or.mp why
        have refused : opened.concerns n = false := by
          rw [← h.concerns_eq]
          simpa using unconcerned
        obtain ⟨begun, first⟩ := kept (by simpa using refused)
        obtain ⟨w, last, present⟩ := (h.fresh some).resolve_left notBehind
        refine ⟨w, last, ?_⟩
        rw [sent, begun, first]
        refine present.imp_right fun ⟨quiet, cut⟩ => ⟨fun m hm => ?_, cut⟩
        rw [Feed.since_send (Nat.le_trans h.forward h.inside)] at hm
        rcases List.mem_append.mp hm with hm | hm
        · exact quiet m hm
        · rwa [List.mem_singleton.mp hm]

/-- What a poll makes of a view that has come along. -/
inductive Polled (opened : LiveView) (s : Viewing) : Viewing → Prop
  | first {w : MediaWindow} : s.shown = [] → s.view = opened →
      opened.window s.account = .ok w →
      Polled opened s { s with view := opened.begun, shown := [w] }
  /-- Something is met. If nothing was missed, it is an unread notice. -/
  | news {w : MediaWindow} {place : Nat} : s.shown ≠ [] → opened.begun.window s.account = .ok w →
      s.view.place < place → place ≤ s.account.mediaNotices.place →
      (s.account.mediaNotices.oldest ≤ s.view.place →
        ∃ passed n, s.unread = passed ++ n :: s.account.mediaNotices.since place ∧
          (∀ m ∈ passed, opened.concerns m = false) ∧ opened.concerns n = true) →
      Polled opened s { s with view := { opened.begun with place }, shown := s.shown ++ [w] }
  | nothing : s.shown ≠ [] → ¬ s.Behind →
      Polled opened s
        { s with view := { opened.begun with place := s.account.mediaNotices.place } }

private theorem shown_ne_nil (h : Follows opened s) (unopened : opened.started = false)
    (started : s.view.started = true) : s.shown ≠ [] := by
  intro first
  rw [h.unstarted first, unopened] at started
  cases started

private theorem pending (h : Follows opened s) (unopened : opened.started = false) {view : LiveView}
    (polls : s.view.poll s.account = .ok (none, view)) :
    s.shown ≠ [] ∧ ¬ s.Behind ∧
      view = { opened.begun with place := s.account.mediaNotices.place } := by
  rcases s.view.poll_cases s.account with ⟨-, eq⟩ | ⟨-, place, -, eq⟩ | ⟨started, place, met, eq⟩
  · rw [eq] at polls
    cases cut : s.view.window s.account <;> rw [cut] at polls <;> cases polls
  · rw [eq] at polls
    cases cut : s.view.window s.account <;> rw [cut] at polls <;> cases polls
  · obtain ⟨held, stop, refused⟩ := Feed.next?_eq_none s.view.isSome_accepts_missed h.inside met
    have some := h.shown_ne_nil unopened started
    refine ⟨some, ?_, ?_⟩
    · rintro (missed | ⟨n, unread, concerns⟩)
      · exact absurd held (Nat.not_le.mpr missed)
      · rw [LiveView.accepts_notice_eq_none_iff.mp (refused n unread)] at concerns
        cases concerns
    · rw [eq, stop, h.started some] at polls
      cases polls
      rfl

theorem polled (h : Follows opened s) (unopened : opened.started = false) {t : Viewing}
    (polls : s.play .poll = .ok t) : Polled opened s t := by
  rw [play] at polls
  rcases s.view.poll_cases s.account with
    ⟨unstarted, eq⟩ | ⟨started, place, met, eq⟩ | ⟨started, place, met, eq⟩
  · have first : s.shown = [] := by
      by_contra some
      rw [h.started some] at unstarted
      cases unstarted
    have same := h.unstarted first
    rw [eq, same] at polls
    cases cut : opened.window s.account with
    | error f => rw [cut] at polls; cases polls
    | ok w =>
      rw [cut] at polls
      cases polls
      rw [first]
      exact .first first same cut
  · have some := h.shown_ne_nil unopened started
    have same := h.started some
    obtain ⟨further, inside, how⟩ := Feed.next?_eq_some s.view.isSome_accepts_missed h.inside met
    have present : s.view.window s.account = opened.begun.window s.account := by
      rw [same]
      rfl
    rw [eq, present] at polls
    cases cut : opened.begun.window s.account with
    | error f => rw [cut] at polls; cases polls
    | ok w =>
      rw [cut] at polls
      cases polls
      rw [same]
      refine .news some cut further inside fun held => ?_
      rcases how with ⟨missed, -⟩ | ⟨-, passed, n, split, refused, taken⟩
      · exact absurd held (Nat.not_le.mpr missed)
      · refine ⟨passed, n, split, fun m hm => ?_, ?_⟩
        · rw [← h.concerns_eq]
          exact LiveView.accepts_notice_eq_none_iff.mp (refused m hm)
        · rw [← h.concerns_eq]
          by_contra unconcerned
          rw [LiveView.accepts_notice_eq_none_iff.mpr (by simpa using unconcerned)] at taken
          cases taken
  · obtain ⟨some, level, same⟩ := h.pending unopened eq
    rw [eq, same] at polls
    cases polls
    simpa using Polled.nothing some level

private theorem poll (h : Follows opened s) (unopened : opened.started = false) {t : Viewing}
    (polls : s.play .poll = .ok t) : Follows opened t := by
  cases h.polled unopened polls with
  | @first w none same cut =>
    refine ⟨h.coherent, Nat.le_refl _, ?_, by simp, fun _ => rfl, fun _ => ?_⟩
    · have inside := h.inside
      rwa [same] at inside
    · by_cases behind : Behind { s with view := opened.begun, shown := [w] }
      · exact .inl behind
      · refine .inr ⟨w, rfl, .inr ⟨fun n hn => ?_, cut⟩⟩
        by_contra concerns
        refine behind (.inr ⟨n, hn, ?_⟩)
        rw [opened.concerns_begun]
        simpa using concerns
  | news some cut further inside met =>
    refine ⟨h.coherent, Nat.le_of_lt (Nat.lt_of_le_of_lt h.forward further), inside, by simp,
      fun _ => rfl, fun _ => .inr ⟨_, List.getLast?_concat, .inl cut⟩⟩
  | nothing some level =>
    exact ⟨h.coherent, Nat.le_trans h.forward h.inside, Nat.le_refl _, fun none => absurd none some,
      fun _ => rfl, fun _ => .inr ((h.fresh some).resolve_left level)⟩

theorem play (h : Follows opened s) (unopened : opened.started = false) {e : Event} {t : Viewing}
    (plays : s.play e = .ok t) : Follows opened t := by
  cases e with
  | change c =>
    cases plays
    exact h.change c
  | poll => exact h.poll unopened plays

theorem run (h : Follows opened s) (unopened : opened.started = false) {events : List Event}
    {t : Viewing} (runs : s.run events = .ok t) : Follows opened t :=
  foldlM_invariant (fun _ _ _ follows plays => follows.play unopened plays) runs h

end Follows

/-- How many of the changes among some events publish a notice that satisfies a condition. -/
def published (p : MediaNotice → Bool) (a : Account) : List Event → Nat
  | [] => 0
  | .change c :: later =>
    (if (c.mediaNotice? a).any p then 1 else 0) + published p (a.apply c) later
  | .poll :: later => published p a later

variable {opened : LiveView} {s t : Viewing} {events : List Event}

theorem account_of_poll (polls : s.play .poll = .ok t) : t.account = s.account := by
  rw [play] at polls
  cases h : s.view.poll s.account with
  | error f => rw [h] at polls; cases polls
  | ok polled => rw [h] at polls; cases polls; rfl

theorem countP_since_run (p : MediaNotice → Bool) {place : Nat} (runs : s.run events = .ok t)
    (inside : place ≤ s.account.mediaNotices.place) :
    (t.account.mediaNotices.since place).countP p =
      (s.account.mediaNotices.since place).countP p + published p s.account events := by
  induction events generalizing s with
  | nil =>
    cases runs
    rfl
  | cons e later ih =>
    rw [run, List.foldlM_cons] at runs
    cases e with
    | change c =>
      have sent := s.account.mediaNotices_apply c
      have after := ih runs
      rw [published]
      cases notice : c.mediaNotice? s.account with
      | none =>
        rw [notice] at sent
        rw [sent] at after
        rw [after inside]
        simp
      | some n =>
        rw [notice] at sent
        have further : place ≤ (s.account.apply c).mediaNotices.place := by
          rw [sent, Feed.place_send]
          exact Nat.le_succ_of_le inside
        rw [after further, sent, Feed.since_send inside, List.countP_append, List.countP_singleton]
        simp only [Option.any_some]
        omega
    | poll =>
      cases polls : s.play .poll with
      | error f => rw [polls] at runs; cases runs
      | ok u =>
        rw [polls] at runs
        have same := account_of_poll polls
        rw [ih runs (by rwa [same]), same, published]

theorem window_run_of_unpublished {v : LiveView} {s t : Viewing}
    {events : List Event} (coherent : s.account.Coherent) (runs : s.run events = .ok t)
    (quiet : published v.concerns s.account events = 0) :
    v.window t.account = v.window s.account := by
  induction events generalizing s with
  | nil =>
    cases runs
    rfl
  | cons e later ih =>
    rw [run, List.foldlM_cons] at runs
    cases e with
    | change c =>
      rw [published, Nat.add_eq_zero_iff] at quiet
      obtain ⟨unconcerned, rest⟩ := quiet
      rw [ih (coherent.apply c) runs rest]
      refine LiveView.window_apply_of_quiet coherent fun n hn => ?_
      rw [Option.mem_def.mp hn] at unconcerned
      simpa using unconcerned
    | poll =>
      cases polls : s.play .poll with
      | error f => rw [polls] at runs; cases runs
      | ok u =>
        rw [polls] at runs
        have same := account_of_poll polls
        rw [ih (by rwa [same]) runs (by rwa [same]), same]

theorem exists_poll_of_run_eq_error {f : Fault} (fails : s.run events = .error f) :
    ∃ front back u, events = front ++ .poll :: back ∧ s.run front = .ok u ∧
      u.view.poll u.account = .error f := by
  obtain ⟨front, e, back, u, split, runs, stops⟩ := exists_of_foldlM_eq_error fails
  cases e with
  | change c => cases stops
  | poll =>
    refine ⟨front, back, u, split, runs, ?_⟩
    rw [play] at stops
    cases h : u.view.poll u.account <;> rw [h] at stops <;> cases stops
    rfl

/-- A view that has been polled until it has nothing to yield is up to date, and no notice that it
has not read concerns it. -/
theorem Follows.drained (h : Follows opened s) (unopened : opened.started = false) {view : LiveView}
    (polls : s.view.poll s.account = .ok (none, view)) :
    UpToDate opened s ∧ ∀ n ∈ s.unread, opened.concerns n = false := by
  obtain ⟨some, level, -⟩ := h.pending unopened polls
  refine ⟨(h.fresh some).resolve_left level, fun n unread => ?_⟩
  by_contra concerns
  refine level (.inr ⟨n, unread, ?_⟩)
  rw [h.concerns_eq]
  simpa using concerns

end Viewing

end PeerPanel
