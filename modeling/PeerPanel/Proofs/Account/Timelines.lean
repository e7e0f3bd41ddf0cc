import Mathlib.Tactic.Tauto
import PeerPanel.Account.Basic

/-!
What the operations on messages do to the two timelines of an account.

A timeline is seen through two questions: which message stands under a number (`Timeline.get?`),
and which numbers a media list shows (`Timeline.listed`). For every operation there is one law for
each of the two, and nothing else about the operations is used later. The main statement is that
the two questions agree, `Account.Coherent`, and that taking a message out and storing one keep it.
-/

set_option autoImplicit false
set_option relaxedAutoImplicit false

namespace PeerPanel

namespace MediaIndex

private theorem mem_listed_foldl_add (index : MediaIndex) (id : FullId) (kinds : List MediaKind)
    (p : PeerId) (k : MediaKind) (n : MsgId) :
    n ∈ (kinds.foldl (·.add id ·) index).listed p k ↔
      ((⟨p, n⟩ : FullId) = id ∧ k ∈ kinds) ∨ n ∈ index.listed p k := by
  induction kinds generalizing index with
  | nil => simp
  | cons kind kinds ih =>
    rw [List.foldl_cons, ih, mem_listed_add, List.mem_cons]
    obtain ⟨q, m⟩ := id
    simp only [FullId.mk.injEq]
    tauto

private theorem mem_listed_foldl_strike (index : MediaIndex) (id : FullId) (kinds : List MediaKind)
    (p : PeerId) (k : MediaKind) (n : MsgId) :
    n ∈ (kinds.foldl (·.strike id ·) index).listed p k ↔
      n ∈ index.listed p k ∧ ¬ ((⟨p, n⟩ : FullId) = id ∧ k ∈ kinds) := by
  induction kinds generalizing index with
  | nil => simp
  | cons kind kinds ih =>
    rw [List.foldl_cons, ih, mem_listed_strike, List.mem_cons]
    obtain ⟨q, m⟩ := id
    simp only [FullId.mk.injEq]
    tauto

end MediaIndex

namespace Timeline

variable (t : Timeline) (m : Message) (id j : FullId) (p : PeerId) (k : MediaKind) (n : MsgId)

@[simp] theorem get?_put : (t.put m).get? j = if j = m.id then some m else t.get? j :=
  Table.get?_insert ..

@[simp] theorem get?_drop : (t.drop id).get? j = if j = id then none else t.get? j :=
  Table.get?_erase ..

@[simp] theorem get?_enlist : (t.enlist m).get? j = t.get? j := rfl

@[simp] theorem get?_strike : (t.strike m).get? j = t.get? j := rfl

@[simp] theorem listed_put : (t.put m).listed p k = t.listed p k := rfl

@[simp] theorem listed_drop : (t.drop id).listed p k = t.listed p k := rfl

private theorem mem_listed_enlist :
    n ∈ (t.enlist m).listed p k ↔
      ((⟨p, n⟩ : FullId) = m.id ∧ k ∈ m.lists) ∨ n ∈ t.listed p k :=
  MediaIndex.mem_listed_foldl_add t.index m.id m.lists p k n

private theorem mem_listed_strike :
    n ∈ (t.strike m).listed p k ↔
      n ∈ t.listed p k ∧ ¬ ((⟨p, n⟩ : FullId) = m.id ∧ k ∈ m.lists) :=
  MediaIndex.mem_listed_foldl_strike t.index m.id m.lists p k n

end Timeline

namespace Account

@[simp] theorem timeline_setTimeline (a : Account) (s r : Bool) (t : Timeline) :
    (a.setTimeline s t).timeline r = if r = s then t else a.timeline r := by
  cases s <;> cases r <;> rfl

@[simp] theorem timeline_notifyMedia (a : Account) (p : PeerId) (s r : Bool) :
    (a.notifyMedia p s).timeline r = a.timeline r := rfl

@[simp] theorem timeline_notifyPeer (a : Account) (p : PeerId) (aspects : PeerAspects) (r : Bool) :
    (a.notifyPeer p aspects).timeline r = a.timeline r := rfl

@[simp] theorem timeline_addPoll (a : Account) (p : Poll) (r : Bool) :
    (a.addPoll p).timeline r = a.timeline r := rfl

@[simp] theorem timeline_addPeer (a : Account) (p : Peer) (r : Bool) :
    (a.addPeer p).timeline r = a.timeline r := by
  unfold addPeer
  split <;> rfl

@[simp] theorem timeline_migrate (a : Account) (chat channel : PeerId) (r : Bool) :
    (a.migrate chat channel).2.timeline r = a.timeline r := by
  unfold migrate
  split <;> rfl

private theorem get?_timeline_strike (a : Account) (m : Message) (r : Bool) (j : FullId) :
    ((a.strike m).timeline r).get? j = (a.timeline r).get? j := by
  rw [strike, timeline_setTimeline]
  by_cases h : r = m.scheduled
  · simp [h]
  · simp [h]

theorem get?_timeline_takeOut (a : Account) (s r : Bool) (id j : FullId) :
    ((a.takeOut s id).2.timeline r).get? j =
      if r = s ∧ j = id then none else (a.timeline r).get? j := by
  unfold takeOut
  cases hm : (a.timeline s).get? id with
  | none =>
    by_cases h : r = s ∧ j = id
    · rw [if_pos h, h.1, h.2]
      exact hm
    · rw [if_neg h]
  | some m =>
    simp only [get?_timeline_strike, timeline_setTimeline]
    by_cases hr : r = s
    · subst hr
      simp
    · simp [hr]

theorem get?_timeline_addMessage (a : Account) (m : Message) (r : Bool) (j : FullId) :
    ((a.addMessage m).timeline r).get? j =
      if r = m.scheduled ∧ j = m.id then some m else (a.timeline r).get? j := by
  simp only [addMessage, timeline_notifyMedia, timeline_setTimeline]
  by_cases hr : r = m.scheduled
  · subst hr
    by_cases hj : j = m.id
    · simp [hj]
    · simp [hj, get?_timeline_takeOut]
  · simp [hr, get?_timeline_takeOut]

theorem timeline_removeMessage (a : Account) (s r : Bool) (id : FullId) :
    (a.removeMessage s id).2.timeline r = (a.takeOut s id).2.timeline r := by
  unfold removeMessage
  rcases a.takeOut s id with ⟨_ | m, cleared⟩ <;> rfl

/-- The lists of both timelines show the messages that are stored, at the places that they name. -/
structure Coherent (a : Account) : Prop where
  stored : ∀ {s id m}, (a.timeline s).get? id = some m → m.id = id ∧ m.scheduled = s
  listed : ∀ {s p k n}, n ∈ (a.timeline s).listed p k ↔
    ∃ m, (a.timeline s).get? ⟨p, n⟩ = some m ∧ k ∈ m.lists

theorem coherent_empty : Coherent {} where
  stored {s id m} h := by cases s <;> cases h
  listed {s p k n} := by
    have unlisted : n ∉ (({} : Account).timeline s).listed p k := by
      cases s <;> exact MsgSet.not_mem_empty n
    have vacant : (({} : Account).timeline s).get? ⟨p, n⟩ = none := by cases s <;> rfl
    simp [unlisted, vacant]

theorem Coherent.of_timeline_eq {a b : Account} (coherent : a.Coherent)
    (same : ∀ s, b.timeline s = a.timeline s) : b.Coherent where
  stored h := coherent.stored (by rwa [same] at h)
  listed {s p k n} := by
    rw [same]
    exact coherent.listed

/-- A message that is stored names the timeline and the number that it stands under, so striking it
clears exactly the lists that showed it there. -/
private theorem Coherent.mem_listed_takeOut {a : Account} (coherent : a.Coherent) (s r : Bool)
    (id : FullId) (p : PeerId) (k : MediaKind) (n : MsgId) :
    n ∈ ((a.takeOut s id).2.timeline r).listed p k ↔
      n ∈ (a.timeline r).listed p k ∧ ¬ (r = s ∧ (⟨p, n⟩ : FullId) = id) := by
  unfold takeOut
  cases hm : (a.timeline s).get? id with
  | none =>
    refine ⟨fun h => ⟨h, ?_⟩, And.left⟩
    rintro ⟨rfl, rfl⟩
    obtain ⟨m, stored, -⟩ := coherent.listed.mp h
    rw [hm] at stored
    cases stored
  | some m =>
    obtain ⟨hid, hs⟩ := coherent.stored hm
    subst hid hs
    simp only [strike, timeline_setTimeline]
    by_cases hr : r = m.scheduled
    · subst hr
      simp only [if_true, Timeline.mem_listed_strike, Timeline.listed_drop, true_and]
      refine and_congr_right fun h => not_congr (and_iff_left_of_imp fun hn => ?_)
      obtain ⟨m', stored, hk⟩ := coherent.listed.mp h
      rw [hn, hm] at stored
      cases stored
      exact hk
    · simp [hr]

private theorem Coherent.takeOut {a : Account} (coherent : a.Coherent) (s : Bool) (id : FullId) :
    (a.takeOut s id).2.Coherent where
  stored {r j m} h := by
    rw [get?_timeline_takeOut] at h
    split at h
    · cases h
    · exact coherent.stored h
  listed {r p k n} := by
    rw [coherent.mem_listed_takeOut, coherent.listed, get?_timeline_takeOut]
    by_cases h : r = s ∧ (⟨p, n⟩ : FullId) = id
    · simp [h]
    · simp [h]

theorem Coherent.addMessage {a : Account} (coherent : a.Coherent) (m : Message) :
    (a.addMessage m).Coherent where
  stored {r j m'} h := by
    rw [get?_timeline_addMessage] at h
    split at h
    · next place =>
      cases h
      exact ⟨place.2.symm, place.1.symm⟩
    · exact coherent.stored h
  listed {r p k n} := by
    have cleared := (coherent.mem_listed_takeOut m.scheduled r m.id p k n)
    rw [get?_timeline_addMessage]
    simp only [Account.addMessage, timeline_notifyMedia, timeline_setTimeline]
    by_cases hr : r = m.scheduled
    · subst hr
      rw [if_pos rfl, Timeline.listed_put, Timeline.mem_listed_enlist, cleared, coherent.listed]
      by_cases hn : (⟨p, n⟩ : FullId) = m.id
      · simp [hn]
      · simp [hn]
    · rw [if_neg hr, cleared, coherent.listed]
      simp [hr]

theorem Coherent.removeMessage {a : Account} (coherent : a.Coherent) (s : Bool) (id : FullId) :
    (a.removeMessage s id).2.Coherent :=
  (coherent.takeOut s id).of_timeline_eq fun r => timeline_removeMessage a s r id

end Account

end PeerPanel
