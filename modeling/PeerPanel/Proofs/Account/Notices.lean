import Mathlib.Data.List.Sort
import PeerPanel.Proofs.Account.History
import PeerPanel.Proofs.Signal.Feed

/-!
Which notices a change of an account publishes, and what it leaves alone.

A change publishes at most one notice about shared media, and it does so exactly when it puts a
message in place or takes one out (`Change.mediaNotice?`). So where no notice names a peer and a
timeline, nothing has happened to the messages of that peer in it: they are stored and listed as
they were (`get?_timeline_apply_of_quiet`, `listed_apply_of_quiet`).
-/

set_option autoImplicit false
set_option relaxedAutoImplicit false

namespace PeerPanel

private theorem MsgSet.eq_of_mem_iff {s t : MsgSet} (h : ∀ n, n ∈ s ↔ n ∈ t) : s = t := by
  have irrefl : Std.Irrefl (fun m n : MsgId => m < n) := ⟨fun m => Int.lt_irrefl m.number⟩
  have antisymm : Std.Antisymm (fun m n : MsgId => m < n) :=
    ⟨fun m n below above => absurd (Int.lt_trans below above) (Int.lt_irrefl m.number)⟩
  have same : s.ids = t.ids := s.ascending.eq_of_mem_iff t.ascending h
  cases s
  cases t
  cases same
  rfl

namespace Account

section

variable (a : Account) (m : Message) (s : Bool) (id : FullId)

@[simp] theorem mediaNotices_setTimeline (t : Timeline) :
    (a.setTimeline s t).mediaNotices = a.mediaNotices := by
  cases s <;> rfl

@[simp] theorem mediaNotices_takeOut : (a.takeOut s id).2.mediaNotices = a.mediaNotices := by
  unfold takeOut
  split
  · rw [strike, mediaNotices_setTimeline, mediaNotices_setTimeline]
  · rfl

private theorem mediaNotices_addMessage :
    (a.addMessage m).mediaNotices = a.mediaNotices.send ⟨m.id.peer, m.scheduled⟩ := by
  simp only [addMessage, notifyMedia, mediaNotices_setTimeline, mediaNotices_takeOut]

theorem takeOut_fst : (a.takeOut s id).1 = (a.timeline s).get? id := by
  unfold takeOut
  cases (a.timeline s).get? id <;> rfl

private theorem mediaNotices_removeMessage :
    (a.removeMessage s id).2.mediaNotices =
      match (a.timeline s).get? id with
      | some _ => a.mediaNotices.send ⟨id.peer, s⟩
      | none => a.mediaNotices := by
  have same := a.mediaNotices_takeOut s id
  rw [← takeOut_fst, removeMessage]
  generalize a.takeOut s id = taken at same
  obtain ⟨_ | m, cleared⟩ := taken
  · exact same
  · exact congrArg (Feed.send · _) same

private theorem mediaNotices_addPeer (p : Peer) : (a.addPeer p).mediaNotices = a.mediaNotices := by
  unfold addPeer
  split <;> rfl

private theorem mediaNotices_migrate (chat channel : PeerId) :
    (a.migrate chat channel).2.mediaNotices = a.mediaNotices := by
  unfold migrate
  split <;> rfl

end

/-- What a change tells those that follow shared media, if it is made in an account. -/
def Change.mediaNotice? (a : Account) : Change → Option MediaNotice
  | message m => some ⟨m.id.peer, m.scheduled⟩
  | removal s id => ((a.timeline s).get? id).map fun _ => ⟨id.peer, s⟩
  | _ => none

theorem mediaNotices_apply (a : Account) (c : Change) :
    (a.apply c).mediaNotices =
      match c.mediaNotice? a with
      | some n => a.mediaNotices.send n
      | none => a.mediaNotices := by
  cases c with
  | message m => exact mediaNotices_addMessage a m
  | removal s id =>
    rw [apply, mediaNotices_removeMessage, Change.mediaNotice?]
    cases (a.timeline s).get? id <;> rfl
  | peer p => exact mediaNotices_addPeer a p
  | migration chat channel => exact mediaNotices_migrate a chat channel
  | peerNotice peer aspects => rfl
  | poll p => rfl

theorem capacity_mediaNotices_apply (a : Account) (c : Change) :
    (a.apply c).mediaNotices.capacity = a.mediaNotices.capacity := by
  rw [mediaNotices_apply]
  cases c.mediaNotice? a <;> rfl

theorem capacity_mediaNotices_after (changes : List Change) :
    (after changes).mediaNotices.capacity = 256 := by
  induction changes using List.reverseRecOn with
  | nil => rfl
  | append_singleton changes c ih => rw [after_append_singleton, capacity_mediaNotices_apply, ih]

theorem get?_timeline_apply_of_quiet {a : Account} {c : Change} {s : Bool} {p : PeerId}
    (quiet : c.mediaNotice? a ≠ some ⟨p, s⟩) (n : MsgId) :
    ((a.apply c).timeline s).get? ⟨p, n⟩ = (a.timeline s).get? ⟨p, n⟩ := by
  rw [get?_timeline_apply]
  split
  · next place =>
    cases c with
    | message m =>
      simp only [Change.place?, Option.some.injEq, Prod.mk.injEq] at place
      obtain ⟨named, own⟩ := place
      rw [Change.mediaNotice?, named, own] at quiet
      exact absurd rfl quiet
    | removal r id =>
      simp only [Change.place?, Option.some.injEq, Prod.mk.injEq] at place
      obtain ⟨rfl, rfl⟩ := place
      cases stored : (a.timeline r).get? ⟨p, n⟩ with
      | none => rfl
      | some m =>
        rw [Change.mediaNotice?, stored] at quiet
        exact absurd rfl quiet
    | _ => cases place
  · rfl

theorem listed_apply_of_quiet {a : Account} {c : Change} {s : Bool} {p : PeerId}
    (coherent : a.Coherent) (quiet : c.mediaNotice? a ≠ some ⟨p, s⟩) (k : MediaKind) :
    ((a.apply c).timeline s).listed p k = (a.timeline s).listed p k := by
  refine MsgSet.eq_of_mem_iff fun n => ?_
  rw [coherent.listed, (coherent.apply c).listed, get?_timeline_apply_of_quiet quiet]

end Account

end PeerPanel
