import PeerPanel.Panel.Pane
import PeerPanel.Proofs.Account.MergedTimeline
import PeerPanel.Proofs.Account.Separation
import PeerPanel.Proofs.Window.Cut

/-!
Media windows that are opened at a message.

The anchor is a position of a pair of histories, and the message there decides which timeline is
read: the merged one if the history of its owner holds it, and the scheduled one if it is only
planned. Every position of a message is one of the merged timeline (`Coherent.mem_merged`), and a
window keeps the anchor that it is cut at (`MediaWindow.anchor_mem_cut`). The scheduled timeline is
that of the peer alone, and the positions of the earlier chat have no place in it. Main statement:
`Pane.window_at_message`.
-/

set_option autoImplicit false
set_option relaxedAutoImplicit false

namespace PeerPanel

open Account (Change after)
open TimelineId (ofMain lowered)

private theorem TimelineId.resolve_cases {t : TimelineId} {p : PeerId} {q : Option PeerId}
    {id : FullId} (resolves : t.resolve p q = some id) :
    (t.isMigrated = false ∧ id.peer = p ∧ t = ofMain id.msg) ∨
      (t.isMigrated = true ∧ q = some id.peer ∧ t = lowered id.msg) := by
  unfold resolve at resolves
  split at resolves
  · next migrated =>
    obtain ⟨earlier, rfl, rfl⟩ := Option.map_eq_some_iff.mp resolves
    refine .inr ⟨migrated, rfl, ?_⟩
    rw [msg, if_pos migrated, lowered, Int.add_sub_cancel]
  · next own =>
    cases resolves
    refine .inl ⟨Bool.eq_false_iff.mpr own, rfl, ?_⟩
    rw [msg, if_neg own, ofMain]

namespace LiveView

private theorem poll_of_window {v : LiveView} {a : Account} {w : MediaWindow}
    (unstarted : v.started = false) (cut : v.window a = .ok w) :
    v.poll a = .ok (some w, v.begun) := by
  rw [poll_of_unstarted unstarted, cut]
  rfl

end LiveView

namespace Account

/-- A message is scheduled under a number, and a media list shows it. -/
def Schedules (a : Account) (k : MediaKind) (id : FullId) : Prop :=
  ∃ m, a.scheduledMessage? id = some m ∧ k ∈ m.lists

variable {a : Account} {p : PeerId} {q : Option PeerId} {k : MediaKind} {t : TimelineId}
  {id : FullId}

theorem Coherent.mem_merged (coherent : a.Coherent) (resolves : t.resolve p q = some id)
    (shows : a.Shows k id) :
    t ∈ (a.earlierIds q k).map lowered ++ (a.history.listed p k).ids.map ofMain := by
  rcases TimelineId.resolve_cases resolves with ⟨-, rfl, rfl⟩ | ⟨-, rfl, rfl⟩
  · have listed : id.msg ∈ a.history.listed id.peer k := coherent.mem_listed_history.mpr shows
    exact List.mem_append_right _ (List.mem_map_of_mem listed)
  · have listed : id.msg ∈ a.earlierIds (some id.peer) k :=
      coherent.mem_earlierIds.mpr ⟨id.peer, rfl, shows⟩
    exact List.mem_append_left _ (List.mem_map_of_mem listed)

private theorem Coherent.exists_merged (coherent : a.Coherent)
    (own : ∀ id, id.peer = p → a.Shows k id → 0 ≤ id.msg.number)
    (earlier : ∀ id, some id.peer = q → a.Shows k id →
      -2 ^ 63 + historyShift ≤ id.msg.number ∧ id.msg.number < historyShift) :
    ∃ all, a.mergedMedia p q k = .ok all ∧ all.Pairwise (· ≤ ·) ∧
      ∀ t id, t.resolve p q = some id → a.Shows k id → t ∈ all := by
  have above : ∀ n ∈ (a.history.listed p k).ids, 0 ≤ n.number := fun n hn =>
    own ⟨p, n⟩ rfl (coherent.mem_listed_history.mp hn)
  have fits : ∀ n ∈ a.earlierIds q k,
      -2 ^ 63 + historyShift ≤ n.number ∧ n.number < historyShift := by
    intro n hn
    obtain ⟨q', rfl, shows⟩ := coherent.mem_earlierIds.mp hn
    exact earlier ⟨q', n⟩ rfl shows
  have ascending := merged_ascending above fun n hn => (fits n hn).2
  exact ⟨_, mergedMedia_eq_ok fits, ascending.imp Int.le_of_lt, fun _ _ => coherent.mem_merged⟩

private theorem Coherent.mem_scheduledMedia (coherent : a.Coherent) :
    t ∈ a.scheduledMedia p k ↔ a.Schedules k ⟨p, ⟨t.number⟩⟩ := by
  have listed : (⟨t.number⟩ : MsgId) ∈ a.scheduled.listed p k ↔ a.Schedules k ⟨p, ⟨t.number⟩⟩ :=
    coherent.listed (s := true)
  rw [← listed, scheduledMedia, List.mem_map]
  constructor
  · rintro ⟨n, hn, rfl⟩
    exact hn
  · exact fun hn => ⟨_, hn, rfl⟩

private theorem scheduledMedia_ascending (a : Account) (p : PeerId) (k : MediaKind) :
    (a.scheduledMedia p k).Pairwise (· ≤ ·) :=
  List.pairwise_map.mpr ((a.scheduled.listed p k).ascending.imp Int.le_of_lt)

private theorem Coherent.first_of_historyView (coherent : a.Coherent)
    (own : ∀ id, id.peer = p → a.Shows k id → 0 ≤ id.msg.number)
    (earlier : ∀ id, some id.peer = q → a.Shows k id →
      -2 ^ 63 + historyShift ≤ id.msg.number ∧ id.msg.number < historyShift)
    (resolves : t.resolve p q = some id) (shows : a.Shows k id) (before later : Nat) :
    let v := a.historyView { peer := p, migrated := q, around := t, kind := k } before later
    ∃ w, v.poll a = .ok (some w, v.begun) ∧ w.origin = .merged ∧ t ∈ w.ids := by
  intro v
  obtain ⟨all, merged, ascending, places⟩ := coherent.exists_merged own earlier
  have cut : v.window a = .ok (.cut v.key .merged all before later) := by
    show a.mergedMedia p q k >>= _ = _
    rw [merged]
    rfl
  exact ⟨_, LiveView.poll_of_window rfl cut, rfl,
    MediaWindow.anchor_mem_cut ascending (places t id resolves shows)⟩

private theorem Coherent.first_of_scheduledView (coherent : a.Coherent) (p : PeerId)
    (q : Option PeerId) (k : MediaKind) (t : TimelineId) (before later : Nat) :
    let v := a.scheduledView { peer := p, migrated := q, around := t, kind := k } before later
    ∃ w, v.poll a = .ok (some w, v.begun) ∧ w.origin = .scheduled ∧
      (t ∈ w.ids ↔ a.Schedules k ⟨p, ⟨t.number⟩⟩) := by
  intro v
  refine ⟨_, LiveView.poll_of_window rfl rfl, rfl, ?_⟩
  rw [← coherent.mem_scheduledMedia]
  constructor
  · exact MediaWindow.mem_of_mem_cut
  · intro mem
    exact MediaWindow.anchor_mem_cut (a.scheduledMedia_ascending p k) mem

end Account

namespace Pane

theorem isScheduled_iff {a : Account} {p : PeerId} {q : Option PeerId} {t : TimelineId} :
    isScheduled a p q t = true ↔
      ∃ id, t.resolve p q = some id ∧ a.message? id = none ∧
        (a.scheduledMessage? id).isSome = true := by
  unfold isScheduled
  cases t.resolve p q <;> simp

theorem baseView_eq {p : Pane} {peer : PeerId} {kind : MediaKind} (subject : p.subject = .peer peer)
    (shown : p.shown = .media kind) (a : Account) (t : TimelineId) (before later : Nat) :
    p.baseView a t before later =
      let key : WindowKey := { peer, migrated := p.migrated, around := t, kind }
      if isScheduled a peer p.migrated t then .ok (a.scheduledView key before later)
      else .ok (a.historyView key before later) := by
  rw [baseView, Pane.peer, mediaKind, subject, shown]
  rfl

/-- While the numbers of the peer are not negative and those of the earlier chat lie within one
shift of the lowest and below the shift, a window that is opened at a listed message of the history
is cut from the merged timeline and shows that message. At a message that is only scheduled it is
cut from the scheduled timeline of the peer: it shows every message of the peer itself, and none of
the earlier chat, unless the peer has scheduled a listed message of the same negative number. -/
theorem window_at_message (changes : List Change) {p : PeerId} {q : Option PeerId} (k : MediaKind)
    {t : TimelineId} {id : FullId} (resolves : t.resolve p q = some id)
    (own : ∀ id, id.peer = p → (after changes).Shows k id → 0 ≤ id.msg.number)
    (earlier : ∀ id, some id.peer = q → (after changes).Shows k id →
      -2 ^ 63 + historyShift ≤ id.msg.number ∧ id.msg.number < historyShift)
    (before later : Nat) :
    let a := after changes
    let pane : Pane := { subject := .peer p, migrated := q, shown := .media k }
    ∃ v, pane.baseView a t before later = .ok v ∧
      (a.Shows k id →
        ∃ w, v.poll a = .ok (some w, v.begun) ∧ w.origin = .merged ∧ t ∈ w.ids) ∧
      (a.message? id = none → a.Schedules k id →
        ∃ w, v.poll a = .ok (some w, v.begun) ∧ w.origin = .scheduled ∧
          (t ∈ w.ids ↔ t.isMigrated = false ∨ a.Schedules k ⟨p, ⟨t.number⟩⟩)) := by
  intro a pane
  have coherent : a.Coherent := Account.coherent_after changes
  have opens := pane.baseView_eq rfl rfl a t before later
  by_cases planned : isScheduled a p q t = true
  · refine ⟨_, opens.trans (if_pos planned), fun shows => ?_, fun _ schedules => ?_⟩
    · -- a message of the history is not only scheduled
      obtain ⟨m, stored, -⟩ := shows
      obtain ⟨other, resolves', absent, -⟩ := isScheduled_iff.mp planned
      obtain rfl : id = other := Option.some.inj (resolves.symm.trans resolves')
      rw [stored] at absent
      cases absent
    · obtain ⟨w, polls, origin, shown_iff⟩ := coherent.first_of_scheduledView p q k t before later
      refine ⟨w, polls, origin, shown_iff.trans ⟨.inr, ?_⟩⟩
      rintro (own | other)
      · rcases TimelineId.resolve_cases resolves with ⟨-, rfl, rfl⟩ | ⟨migrated, -⟩
        · exact schedules
        · rw [own] at migrated
          cases migrated
      · exact other
  · refine ⟨_, opens.trans (if_neg planned), fun shows => ?_, fun absent schedules => ?_⟩
    · exact coherent.first_of_historyView own earlier resolves shows before later
    · obtain ⟨m, stored, -⟩ := schedules
      have waits : (a.scheduledMessage? id).isSome = true := by
        rw [stored]
        rfl
      exact absurd (isScheduled_iff.mpr ⟨id, resolves, absent, waits⟩) planned

/-- A photo of a chat and one of the channel that it has become, and a planned photo of each. -/
def plannedPhotos : List Change :=
  [.message { id := ⟨⟨1⟩, ⟨4⟩⟩, attachment := some .photo },
    .message { id := ⟨⟨2⟩, ⟨3⟩⟩, attachment := some .photo },
    .message { id := ⟨⟨1⟩, ⟨5⟩⟩, attachment := some .photo, scheduled := true },
    .message { id := ⟨⟨2⟩, ⟨9⟩⟩, attachment := some .photo, scheduled := true }]

/-- The photos of the channel of `plannedPhotos`. -/
def photoPane : Pane := { subject := .peer ⟨2⟩, migrated := some ⟨1⟩, shown := .media .photo }

private theorem number_of_plannedPhotos {id : FullId}
    (shows : (after plannedPhotos).Shows .photo id) :
    0 ≤ id.msg.number ∧ id.msg.number < historyShift := by
  obtain ⟨m, mem, rfl⟩ := Account.mem_of_shows shows
  simp only [plannedPhotos, List.mem_cons, Change.message.injEq, List.not_mem_nil, or_false] at mem
  rcases mem with rfl | rfl | rfl | rfl <;> decide

/-- Also without limits a window shows the photo of the earlier chat that it is opened at. -/
theorem earlier_photo_shown :
    ∃ v w, photoPane.baseView (after plannedPhotos) (lowered ⟨4⟩) 0 0 = .ok v ∧
      v.poll (after plannedPhotos) = .ok (some w, v.begun) ∧ w.origin = .merged ∧
        lowered ⟨4⟩ ∈ w.ids := by
  have shows : (after plannedPhotos).Shows .photo ⟨⟨1⟩, ⟨4⟩⟩ := ⟨_, rfl, by decide⟩
  obtain ⟨v, opens, merged, -⟩ :=
    window_at_message plannedPhotos (q := some ⟨1⟩) .photo (t := lowered ⟨4⟩) rfl
      (fun _ _ shows => (number_of_plannedPhotos shows).1)
      (fun _ _ shows => by
        obtain ⟨above, below⟩ := number_of_plannedPhotos shows
        exact ⟨by unfold historyShift; omega, below⟩) 0 0
  obtain ⟨w, polls, origin, mem⟩ := merged shows
  exact ⟨v, w, opens, polls, origin, mem⟩

/-- At the photo that is planned for the earlier chat, which its history does not hold, the window
is cut from the planned photos of the channel, and it does not show that photo. -/
theorem planned_photo_of_earlier_chat_missed :
    (∀ id, (after plannedPhotos).Shows .photo id →
      0 ≤ id.msg.number ∧ id.msg.number < historyShift) ∧
    (lowered ⟨5⟩).resolve ⟨2⟩ (some ⟨1⟩) = some ⟨⟨1⟩, ⟨5⟩⟩ ∧
    (after plannedPhotos).message? ⟨⟨1⟩, ⟨5⟩⟩ = none ∧
    (after plannedPhotos).Schedules .photo ⟨⟨1⟩, ⟨5⟩⟩ ∧
    ∃ v w, photoPane.baseView (after plannedPhotos) (lowered ⟨5⟩) 10 10 = .ok v ∧
      v.poll (after plannedPhotos) = .ok (some w, v.begun) ∧ w.ids = [⟨9⟩] ∧
      lowered ⟨5⟩ ∉ w.ids := by
  have planned : (after plannedPhotos).Schedules .photo ⟨⟨1⟩, ⟨5⟩⟩ := ⟨_, rfl, by decide⟩
  exact ⟨fun _ => number_of_plannedPhotos, rfl, rfl, planned, _, _, rfl, rfl, by decide +kernel,
    by decide +kernel⟩

end Pane

end PeerPanel
