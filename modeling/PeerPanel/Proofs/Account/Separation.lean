import Mathlib.Data.List.Infix
import PeerPanel.Proofs.Account.ListViews

/-!
The two timelines of an account do not meet.

A change is made in one timeline at most, and what it does there depends on that timeline alone. So
a timeline is what the changes made in it leave of an empty one (`Account.timeline_after`), and so
is all that an account answers about it. A view of the history reads the notices of both timelines,
but it passes over those of the other one: without the changes made there it yields the same windows
(`Viewing.Trimmed.run`). Main statement: `Viewing.timelines_kept_apart`.
-/

set_option autoImplicit false
set_option relaxedAutoImplicit false

namespace PeerPanel

open Account (Change)

/-- Whether a change is made in a timeline. -/
def Account.Change.touches (scheduled : Bool) (c : Change) : Bool :=
  c.place?.any fun place => place.1 = scheduled

theorem Account.Change.untouched_of_touches_not {c : Change} {scheduled : Bool}
    (touches : c.touches !scheduled) : c.touches scheduled = false := by
  unfold Change.touches at touches ⊢
  cases place : c.place? with
  | none => rfl
  | some at' =>
    rw [place, Option.any_some, decide_eq_true_eq] at touches
    simp [touches]

namespace Timeline

/-- Take the message with a number out of a timeline and of its lists. -/
def remove (t : Timeline) (id : FullId) : Timeline :=
  match t.get? id with
  | some m => (t.drop id).strike m
  | none => t

/-- What a change that is made in a timeline makes of it. -/
def apply (t : Timeline) : Change → Timeline
  | .message m => ((t.remove m.id).enlist m).put m
  | .removal _ id => t.remove id
  | _ => t

/-- What the removals among some changes of a timeline hand back. -/
def handedBack (t : Timeline) : List Change → List (Option Message)
  | [] => []
  | .removal s id :: later => t.get? id :: handedBack (t.apply (.removal s id)) later
  | c :: later => handedBack (t.apply c) later

end Timeline

namespace Account

/-- What the removals from a timeline hand back that are among some changes of an account. -/
def handedBack (a : Account) (scheduled : Bool) : List Change → List (Option Message)
  | [] => []
  | .removal s id :: later =>
    let rest := handedBack (a.apply (.removal s id)) scheduled later
    if s = scheduled then (a.removeMessage s id).1 :: rest else rest
  | c :: later => handedBack (a.apply c) scheduled later

variable {a : Account}

private theorem Coherent.timeline_takeOut (coherent : a.Coherent) (s r : Bool) (id : FullId) :
    (a.takeOut s id).2.timeline r = if r = s then (a.timeline r).remove id else a.timeline r := by
  unfold Account.takeOut
  cases stored : (a.timeline s).get? id with
  | none =>
    by_cases h : r = s
    · rw [if_pos h, h, Timeline.remove, stored]
    · rw [if_neg h]
  | some m =>
    -- the message is struck from the timeline that it names, which is the one that holds it
    obtain ⟨-, rfl⟩ := coherent.stored stored
    by_cases h : r = m.scheduled
    · subst h
      simp [strike, Timeline.remove, stored]
    · simp [strike, h]

private theorem Coherent.timeline_apply (coherent : a.Coherent) (c : Change) (s : Bool) :
    (a.apply c).timeline s = if c.touches s then (a.timeline s).apply c else a.timeline s := by
  cases c with
  | message m =>
    simp only [Account.apply, Account.addMessage, timeline_notifyMedia, timeline_setTimeline,
      coherent.timeline_takeOut, Change.touches, Change.place?, Option.any_some, decide_eq_true_eq,
      Timeline.apply, if_true]
    by_cases h : s = m.scheduled
    · rw [if_pos h, if_pos h.symm, h]
    · rw [if_neg h, if_neg h, if_neg fun e => h e.symm]
  | removal r id =>
    simp only [Account.apply, timeline_removeMessage, coherent.timeline_takeOut, Change.touches,
      Change.place?, Option.any_some, decide_eq_true_eq, Timeline.apply, @eq_comm _ r s]
  | peer p => exact timeline_addPeer a p s
  | migration chat channel => exact timeline_migrate a chat channel s
  | peerNotice peer aspects => exact timeline_notifyPeer a peer aspects s
  | poll p => exact timeline_addPoll a p s

theorem timeline_after (changes : List Change) (s : Bool) :
    (after changes).timeline s = (changes.filter (·.touches s)).foldl Timeline.apply {} := by
  induction changes using List.reverseRecOn with
  | nil => cases s <;> rfl
  | append_singleton changes c ih =>
    rw [after_append_singleton, (coherent_after changes).timeline_apply, ih, List.filter_append,
      List.foldl_append]
    by_cases h : c.touches s
    · simp [h]
    · simp [h]

private theorem Coherent.handedBack_eq (coherent : a.Coherent) (s : Bool) (changes : List Change) :
    a.handedBack s changes = (a.timeline s).handedBack (changes.filter (·.touches s)) := by
  induction changes generalizing a with
  | nil => rfl
  | cons c later ih =>
    have rest := ih (coherent.apply c)
    rw [coherent.timeline_apply] at rest
    by_cases h : c.touches s
    · rw [if_pos h] at rest
      rw [List.filter_cons_of_pos h]
      cases c with
      | removal r id =>
        have own : r = s := by simpa [Change.touches, Change.place?] using h
        subst own
        have taken : (a.removeMessage r id).1 = (a.timeline r).get? id := by
          rw [← takeOut_fst, Account.removeMessage]
          rcases a.takeOut r id with ⟨_ | m, cleared⟩ <;> rfl
        rw [handedBack, if_pos rfl, rest, taken]
        rfl
      | message m => exact rest
      | peer p => exact rest
      | migration chat channel => exact rest
      | peerNotice peer aspects => exact rest
      | poll p => exact rest
    · rw [if_neg h] at rest
      rw [List.filter_cons_of_neg h, ← rest]
      cases c with
      | removal r id =>
        have other : r ≠ s := by simpa [Change.touches, Change.place?] using h
        rw [handedBack, if_neg other]
      | message m => rfl
      | peer p => rfl
      | migration chat channel => rfl
      | peerNotice peer aspects => rfl
      | poll p => rfl

theorem Change.mediaNotice?_congr {a b : Account} {s : Bool} {c : Change} (touches : c.touches s)
    (same : b.timeline s = a.timeline s) : c.mediaNotice? b = c.mediaNotice? a := by
  cases c with
  | removal r id =>
    have own : r = s := by simpa [Change.touches, Change.place?] using touches
    subst own
    rw [mediaNotice?, mediaNotice?, same]
  | _ => rfl

theorem Change.scheduled_of_mediaNotice? {s : Bool} {c : Change} {n : MediaNotice}
    (published : c.mediaNotice? a = some n) : c.touches s = (n.scheduled = s : Bool) := by
  cases c with
  | message m =>
    cases published
    rfl
  | removal r id =>
    obtain ⟨m, -, rfl⟩ := Option.map_eq_some_iff.mp published
    rfl
  | _ => cases published

end Account

namespace LiveView

variable {v : LiveView} {a : Account} {place : Nat}

theorem poll_of_unstarted (unstarted : v.started = false) (a : Account) :
    v.poll a = (v.window a).map fun w => (some w, v.begun) := by
  rcases v.poll_cases a with ⟨-, eq⟩ | ⟨started, -⟩ | ⟨started, -⟩
  · exact eq
  all_goals
    rw [started] at unstarted
    cases unstarted

private theorem poll_of_news (started : v.started = true)
    (met : a.mediaNotices.next? v.accepts v.place = (some (), place)) :
    v.poll a = (v.window a).map fun w => (some w, { v with place }) := by
  rcases v.poll_cases a with ⟨unstarted, -⟩ | ⟨-, other, same, eq⟩ | ⟨-, other, nothing, -⟩
  · rw [started] at unstarted
    cases unstarted
  · rw [met] at same
    cases same
    exact eq
  · rw [met] at nothing
    cases nothing

private theorem poll_of_nothing (started : v.started = true)
    (met : a.mediaNotices.next? v.accepts v.place = (none, place)) :
    v.poll a = .ok (none, { v with place }) := by
  rcases v.poll_cases a with ⟨unstarted, -⟩ | ⟨-, other, something, -⟩ | ⟨-, other, same, eq⟩
  · rw [started] at unstarted
    cases unstarted
  · rw [met] at something
    cases something
  · rw [met] at same
    cases same
    exact eq

end LiveView

private theorem Account.listWindow_congr {a b : Account} {r : Bool}
    (same : b.timeline r = a.timeline r) (key : WindowKey) (before after : Nat) :
    b.listWindow r key before after = a.listWindow r key before after := by
  cases r with
  | false =>
    have history : b.history = a.history := same
    have merged := mergedMedia_congr (a := a) (b := b) (p := key.peer) (q := key.migrated)
      (fun _ _ k => by rw [history]) key.kind
    simp only [listWindow, Bool.false_eq_true, if_false, merged]
  | true =>
    have scheduled : b.scheduled = a.scheduled := same
    simp only [listWindow, if_true, scheduledMedia, scheduled]

namespace Viewing

variable {opened : LiveView} {r : Bool} {key : WindowKey} {before after : Nat} {a b : Account}
  {s t : Viewing}

/-- An event that makes no change in a timeline. -/
def Event.spares (scheduled : Bool) : Event → Bool
  | .change c => !c.touches scheduled
  | .poll => true

private theorem Follows.unread_change (h : Follows opened s) (c : Change) :
    unread { s with account := s.account.apply c } =
      s.unread ++ (c.mediaNotice? s.account).toList := by
  have sent := s.account.mediaNotices_apply c
  unfold unread
  cases notice : c.mediaNotice? s.account with
  | none =>
    rw [notice] at sent
    rw [sent, Option.toList_none, List.append_nil]
  | some n =>
    rw [notice] at sent
    rw [sent, Option.toList_some]
    exact Feed.since_send h.inside n

private theorem Follows.started_eq (h : Follows opened s) (unopened : opened.started = false) :
    s.view.started = !s.shown.isEmpty := by
  by_cases none : s.shown = []
  · rw [h.unstarted none, unopened, none]
    rfl
  · rw [h.started none]
    cases shown : s.shown with
    | nil => exact absurd shown none
    | cons w rest => rfl

private theorem accepts_of_follows_listView (h : Follows (a.listView r key before after) s) :
    s.view.accepts = fun received => match received with
      | .notice n => if n.isAbout r key then some () else none
      | .missed _ => some () := by
  funext received
  cases received with
  | notice n => rw [LiveView.accepts, h.concerns_eq, a.concerns_listView]
  | missed count => rfl

/-- The second of two views of a list has missed at most what was done in the other timeline. -/
structure Trimmed (r : Bool) (s t : Viewing) : Prop where
  timeline : t.account.timeline r = s.account.timeline r
  unread : t.unread = s.unread.filter fun n => n.scheduled = r
  shown : t.shown = s.shown
  capacity : t.account.mediaNotices.capacity = s.account.mediaNotices.capacity

namespace Trimmed

private theorem begin (same : b.timeline r = a.timeline r)
    (capacity : b.mediaNotices.capacity = a.mediaNotices.capacity) (key : WindowKey)
    (before after : Nat) :
    Trimmed r (ofList a r key before after) (ofList b r key before after) where
  timeline := same
  unread := by
    simp only [Viewing.unread, ofList, Account.place_listView, Feed.since_place, List.filter_nil]
  shown := rfl
  capacity := capacity

private theorem change (h : Trimmed r s t) {v w : LiveView} (left : Follows v s)
    (right : Follows w t) {c : Change} (spared : c.touches (!r) = false) :
    Trimmed r { s with account := s.account.apply c } { t with account := t.account.apply c } where
  timeline := by
    rw [left.coherent.timeline_apply, right.coherent.timeline_apply, h.timeline]
  unread := by
    rw [left.unread_change, right.unread_change, List.filter_append, h.unread]
    congr 1
    by_cases touches : c.touches r
    · rw [Change.mediaNotice?_congr touches h.timeline]
      cases published : c.mediaNotice? s.account with
      | none => rfl
      | some n =>
        have own : n.scheduled = r := by
          rw [Change.scheduled_of_mediaNotice? published] at touches
          simpa using touches
        simp [own]
    · -- a change that is made in neither timeline publishes nothing
      have silent (d : Account) : c.mediaNotice? d = none := by
        cases published : c.mediaNotice? d with
        | none => rfl
        | some n =>
          rw [Change.scheduled_of_mediaNotice? published] at touches spared
          simp only [decide_eq_true_eq, decide_eq_false_iff_not] at touches spared
          exact absurd (Bool.eq_not_of_ne touches) spared
      rw [silent, silent]
      rfl
  shown := h.shown
  capacity := by
    rw [Account.capacity_mediaNotices_apply, Account.capacity_mediaNotices_apply, h.capacity]

private theorem change_left (h : Trimmed r s t) {v : LiveView} (left : Follows v s) {c : Change}
    (elsewhere : c.touches r = false) :
    Trimmed r { s with account := s.account.apply c } t where
  timeline := by
    rw [left.coherent.timeline_apply, h.timeline, elsewhere]
    rfl
  unread := by
    rw [left.unread_change, List.filter_append, h.unread]
    cases published : c.mediaNotice? s.account with
    | none => simp
    | some n =>
      rw [Change.scheduled_of_mediaNotice? published] at elsewhere
      simp [elsewhere]
  shown := h.shown
  capacity := by rw [Account.capacity_mediaNotices_apply, h.capacity]

private theorem window_eq (h : Trimmed r s t) (left : Follows (a.listView r key before after) s)
    (right : Follows (b.listView r key before after) t) :
    t.view.window t.account = s.view.window s.account := by
  rw [window_of_follows_listView left, window_of_follows_listView right,
    Account.listWindow_congr h.timeline]

private theorem started_eq (h : Trimmed r s t) (left : Follows (a.listView r key before after) s)
    (right : Follows (b.listView r key before after) t) : t.view.started = s.view.started := by
  rw [left.started_eq (a.started_listView ..), right.started_eq (b.started_listView ..), h.shown]

private theorem oldest_le (h : Trimmed r s t)
    (held : s.account.mediaNotices.oldest ≤ s.view.place) :
    t.account.mediaNotices.oldest ≤ t.view.place := by
  rw [Feed.oldest_le_iff] at held ⊢
  have fewer : t.unread.length ≤ s.unread.length := by
    rw [h.unread]
    exact List.length_filter_le _ _
  rw [h.capacity]
  exact Nat.le_trans fewer held

private theorem polled (h : Trimmed r s t) {vs vt : LiveView}
    (polls : s.view.poll s.account = (s.view.window s.account).map fun w => (some w, vs))
    (polls' : t.view.poll t.account = (s.view.window s.account).map fun w => (some w, vt))
    (unread : t.account.mediaNotices.since vt.place =
      (s.account.mediaNotices.since vs.place).filter fun n => n.scheduled = r) :
    (∃ f, s.play .poll = .error f ∧ t.play .poll = .error f) ∨
      ∃ s' t', s.play .poll = .ok s' ∧ t.play .poll = .ok t' ∧ Trimmed r s' t' := by
  rw [play, play, polls, polls']
  cases s.view.window s.account with
  | error f => exact .inl ⟨f, rfl, rfl⟩
  | ok w =>
    refine .inr ⟨_, _, rfl, rfl, ⟨h.timeline, unread, ?_, h.capacity⟩⟩
    rw [h.shown]

private theorem poll (h : Trimmed r s t) (left : Follows (a.listView r key before after) s)
    (right : Follows (b.listView r key before after) t)
    (held : s.account.mediaNotices.oldest ≤ s.view.place) :
    (∃ f, s.play .poll = .error f ∧ t.play .poll = .error f) ∨
      ∃ s' t', s.play .poll = .ok s' ∧ t.play .poll = .ok t' ∧ Trimmed r s' t' := by
  have window := h.window_eq left right
  have started := h.started_eq left right
  have heldRight := h.oldest_le held
  have accepts : t.view.accepts = s.view.accepts := by
    rw [accepts_of_follows_listView left, accepts_of_follows_listView right]
  have own : ∀ n : MediaNotice, s.view.accepts (.notice n) = some () → n.scheduled = r := by
    intro n accepted
    by_contra other
    rw [accepts_of_follows_listView left] at accepted
    simp [MediaNotice.isAbout, other] at accepted
  rcases s.view.poll_cases s.account with
    ⟨unstarted, polls⟩ | ⟨begun, place, met, polls⟩ | ⟨begun, place, met, polls⟩
  · have polls' := LiveView.poll_of_unstarted (started.trans unstarted) t.account
    rw [window] at polls'
    exact h.polled polls polls' h.unread
  · obtain ⟨-, -, ⟨missed, -⟩ | ⟨-, passed, n, split, refused, taken⟩⟩ :=
      Feed.next?_eq_some s.view.isSome_accepts_missed left.inside met
    · exact absurd held (Nat.not_le.mpr missed)
    have split' : t.account.mediaNotices.since t.view.place =
        passed.filter (fun n => n.scheduled = r) ++
          n :: (s.account.mediaNotices.since place).filter (fun n => n.scheduled = r) := by
      refine h.unread.trans ?_
      rw [Viewing.unread, split, List.filter_append,
        List.filter_cons_of_pos (by simp [own n taken])]
    have refused' : ∀ x ∈ passed.filter (fun n => n.scheduled = r),
        t.view.accepts (.notice x) = none := by
      intro x hx
      rw [accepts]
      exact refused x (List.mem_of_mem_filter hx)
    obtain ⟨place', met', unread⟩ := Feed.exists_next?_of_split heldRight split' refused'
      (by rw [accepts]; exact taken)
    have polls' := LiveView.poll_of_news (started.trans begun) met'
    rw [window] at polls'
    exact h.polled polls polls' unread
  · obtain ⟨-, stop, refused⟩ :=
      Feed.next?_eq_none s.view.isSome_accepts_missed left.inside met
    have refused' : ∀ x ∈ t.unread, t.view.accepts (.notice x) = none := by
      intro x hx
      rw [h.unread] at hx
      rw [accepts]
      exact refused x (List.mem_of_mem_filter hx)
    have met' := Feed.next?_of_refused heldRight right.inside refused'
    rw [play, play, polls, LiveView.poll_of_nothing (started.trans begun) met']
    refine .inr ⟨_, _, rfl, rfl, ⟨h.timeline, ?_, ?_, h.capacity⟩⟩
    · simp only [Viewing.unread, stop, Feed.since_place, List.filter_nil]
    · rw [h.shown]

end Trimmed

/-- Without the events that make a change in the other timeline, a view that misses nothing yields
the same windows, or fails in the same way. -/
private theorem Trimmed.run (h : Trimmed r s t) (left : Follows (a.listView r key before after) s)
    (right : Follows (b.listView r key before after) t) {events : List Event}
    (keepsUp : ∀ front u, front <+: events → s.run front = .ok u →
      u.account.mediaNotices.oldest ≤ u.view.place) :
    (t.run (events.filter (·.spares !r))).map Viewing.shown = (s.run events).map Viewing.shown := by
  -- an event of the other timeline moves the first view alone, and `Trimmed` still holds
  induction events generalizing s t with
  | nil => exact congrArg Except.ok h.shown
  | cons e later ih =>
    have held := keepsUp [] s List.nil_prefix rfl
    have unopened := a.started_listView r key before after
    have unopened' := b.started_listView r key before after
    have keepsUpLater {s' : Viewing} (plays : s.play e = .ok s') : ∀ front u, front <+: later →
        s'.run front = .ok u → u.account.mediaNotices.oldest ≤ u.view.place := by
      intro front u isPrefix reaches
      refine keepsUp (e :: front) u (List.cons_prefix_cons.mpr ⟨rfl, isPrefix⟩) ?_
      rw [Viewing.run, List.foldlM_cons, plays]
      exact reaches
    have runs (u : Viewing) (es : List Event) : u.run (e :: es) = u.play e >>= (·.run es) := rfl
    rw [runs]
    cases e with
    | poll =>
      rw [List.filter_cons_of_pos (by rfl), runs]
      rcases h.poll left right held with ⟨f, stops, stops'⟩ | ⟨s', t', plays, plays', trimmed⟩
      · rw [stops, stops']
        rfl
      · rw [plays, plays']
        exact ih trimmed (left.play unopened plays) (right.play unopened' plays')
          (keepsUpLater plays)
    | change c =>
      by_cases spared : c.touches (!r) = false
      · rw [List.filter_cons_of_pos (by simp [Event.spares, spared]), runs]
        exact ih (h.change left right spared) (left.change c) (right.change c) (keepsUpLater rfl)
      · have elsewhere := Change.untouched_of_touches_not (Bool.eq_true_of_not_eq_false spared)
        rw [List.filter_cons_of_neg (by simp [Event.spares, spared])]
        exact ih (h.change_left left elsewhere) (left.change c) right (keepsUpLater rfl)

/-- What an account answers about one of its timelines depends only on the changes that were made in
it: in the history, the messages and their lists, what a text finds, and what removals hand back;
and likewise among what is scheduled. A view that never has more unread notices than are held yields
the same windows if all that is done in the other timeline is left out, before it was opened and
since, whenever it is polled. -/
theorem timelines_kept_apart :
    (∀ xs ys : List Change, xs.filter (·.touches false) = ys.filter (·.touches false) →
      (∀ id, (Account.after xs).message? id = (Account.after ys).message? id) ∧
      (∀ p q k, (Account.after xs).mergedMedia p q k = (Account.after ys).mergedMedia p q k) ∧
      (∀ p k text,
        (Account.after xs).searchMedia p k text = (Account.after ys).searchMedia p k text) ∧
      Account.handedBack {} false xs = Account.handedBack {} false ys) ∧
    (∀ xs ys : List Change, xs.filter (·.touches true) = ys.filter (·.touches true) →
      (∀ id, (Account.after xs).scheduledMessage? id = (Account.after ys).scheduledMessage? id) ∧
      (∀ p k, (Account.after xs).scheduledMedia p k = (Account.after ys).scheduledMedia p k) ∧
      Account.handedBack {} true xs = Account.handedBack {} true ys) ∧
    ∀ (r : Bool) (earlier : List Change) (key : WindowKey) (before after : Nat)
      (events : List Event),
      let start := ofList (Account.after earlier) r key before after
      (∀ front u, front <+: events → start.run front = .ok u → u.unread.length ≤ 256) →
      ((ofList (Account.after (earlier.filter fun c => !c.touches !r)) r key before after).run
        (events.filter (·.spares !r))).map shown = (start.run events).map shown := by
  have timelines {s : Bool} {xs ys : List Change}
      (same : xs.filter (·.touches s) = ys.filter (·.touches s)) :
      (Account.after xs).timeline s = (Account.after ys).timeline s := by
    rw [Account.timeline_after, Account.timeline_after, same]
  have handedBack {s : Bool} {xs ys : List Change}
      (same : xs.filter (·.touches s) = ys.filter (·.touches s)) :
      Account.handedBack {} s xs = Account.handedBack {} s ys := by
    rw [Account.coherent_empty.handedBack_eq, Account.coherent_empty.handedBack_eq, same]
  refine ⟨fun xs ys same => ?_, fun xs ys same => ?_, fun r earlier key before after events => ?_⟩
  · have history : (Account.after xs).history = (Account.after ys).history := timelines same
    refine ⟨fun id => ?_, fun p q k => ?_, fun p k text => ?_, handedBack same⟩
    · rw [Account.message?, history, Account.message?]
    · exact Account.mergedMedia_congr (fun _ _ _ => by rw [history]) k
    · exact Account.searchMedia_congr (by rw [history])
        (fun n => by rw [Account.message?, history, Account.message?]) text
  · have scheduled : (Account.after xs).scheduled = (Account.after ys).scheduled := timelines same
    refine ⟨fun id => ?_, fun p k => ?_, handedBack same⟩
    · rw [Account.scheduledMessage?, scheduled, Account.scheduledMessage?]
    · rw [Account.scheduledMedia, scheduled, Account.scheduledMedia]
  · intro start keepsUp
    have spared : (earlier.filter fun c => !c.touches !r).filter (·.touches r) =
        earlier.filter (·.touches r) := by
      rw [List.filter_filter]
      refine List.filter_congr fun c _ => ?_
      by_cases other : c.touches !r
      · rw [Change.untouched_of_touches_not other, Bool.false_and]
      · simp [other]
    have trimmed : Trimmed r start
        (ofList (Account.after (earlier.filter fun c => !c.touches !r)) r key before after) :=
      .begin (timelines spared) (by rw [Account.capacity_mediaNotices_after,
        Account.capacity_mediaNotices_after]) key before after
    exact trimmed.run (follows_ofList (Account.coherent_after _) r key before after)
      (follows_ofList (Account.coherent_after _) r key before after)
      fun front u isPrefix reaches => oldest_le_of_unread reaches (keepsUp front u isPrefix reaches)

/-- A file, in the history or yet to be sent, always under the same number. -/
def fileSeven (scheduled : Bool) : Change :=
  .message { id := ⟨⟨2⟩, ⟨7⟩⟩, attachment := some .file, scheduled }

/-- A scheduled file with the number of one in the history, and its removal, are not seen there. -/
theorem namesake_not_seen :
    (Account.after [fileSeven false, fileSeven true, .removal true ⟨⟨2⟩, ⟨7⟩⟩]).message?
      ⟨⟨2⟩, ⟨7⟩⟩ = (Account.after [fileSeven false]).message? ⟨⟨2⟩, ⟨7⟩⟩ ∧
    Account.handedBack {} true [fileSeven true, fileSeven false, .removal true ⟨⟨2⟩, ⟨7⟩⟩] =
      Account.handedBack {} true [fileSeven true, .removal true ⟨⟨2⟩, ⟨7⟩⟩] ∧
    ((ofList (Account.after []) false ⟨⟨2⟩, none, ⟨0⟩, .file⟩ 5 5).run
        [.change (fileSeven false), .poll]).map shown =
      ((ofList (Account.after [fileSeven true]) false ⟨⟨2⟩, none, ⟨0⟩, .file⟩ 5 5).run
        [.change (fileSeven false), .poll, .change (.removal true ⟨⟨2⟩, ⟨7⟩⟩)]).map shown := by
  refine ⟨?_, ?_, ?_⟩
  · exact (timelines_kept_apart.1 _ _ (by decide)).1 _
  · exact (timelines_kept_apart.2.1 _ _ (by decide)).2.2
  · refine timelines_kept_apart.2.2 false [fileSeven true] ⟨⟨2⟩, none, ⟨0⟩, .file⟩ 5 5
      [.change (fileSeven false), .poll, .change (.removal true ⟨⟨2⟩, ⟨7⟩⟩)]
      fun front u isPrefix reaches => ?_
    have among := (List.mem_inits _ _).mpr isPrefix
    simp only [List.inits, List.map_cons, List.map_nil, List.mem_cons, List.not_mem_nil,
      or_false] at among
    rcases among with rfl | rfl | rfl | rfl <;> cases reaches <;> decide

end Viewing

end PeerPanel
