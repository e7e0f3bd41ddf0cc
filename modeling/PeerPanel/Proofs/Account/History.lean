import Mathlib.Data.List.Induction
import PeerPanel.Proofs.Account.Timelines

/-!
What an account holds after any sequence of changes.

A change of messages concerns one place: a number in one of the two timelines. What stands at a
place is the message that was added there last, unless it was removed since, and the media lists of
a timeline show what stands in it.
-/

set_option autoImplicit false
set_option relaxedAutoImplicit false

namespace PeerPanel.Account

/-- A change of an account. -/
inductive Change
  | peer (p : Peer)
  | migration (chat channel : PeerId)
  | peerNotice (peer : PeerId) (aspects : PeerAspects)
  | message (m : Message)
  | removal (scheduled : Bool) (id : FullId)
  | poll (p : Poll)
  deriving DecidableEq

def apply (a : Account) : Change → Account
  | .peer p => a.addPeer p
  | .migration chat channel => (a.migrate chat channel).2
  | .peerNotice peer aspects => a.notifyPeer peer aspects
  | .message m => a.addMessage m
  | .removal scheduled id => (a.removeMessage scheduled id).2
  | .poll p => a.addPoll p

/-- The account after changes, made one after the other from an empty one. -/
def after (changes : List Change) : Account := changes.foldl apply {}

namespace Change

/-- The timeline and the number in it that a change concerns. -/
def place? : Change → Option (Bool × FullId)
  | message m => some (m.scheduled, m.id)
  | removal scheduled id => some (scheduled, id)
  | _ => none

def message? : Change → Option Message
  | message m => some m
  | _ => none

end Change

theorem after_append_singleton (changes : List Change) (c : Change) :
    after (changes ++ [c]) = (after changes).apply c := by
  simp only [after, List.foldl_append, List.foldl_cons, List.foldl_nil]

theorem Coherent.apply {a : Account} (coherent : a.Coherent) (c : Change) :
    (a.apply c).Coherent := by
  cases c with
  | message m => exact coherent.addMessage m
  | removal s id => exact coherent.removeMessage s id
  | peer p => exact coherent.of_timeline_eq (timeline_addPeer a p)
  | migration chat channel => exact coherent.of_timeline_eq (timeline_migrate a chat channel)
  | peerNotice peer aspects => exact coherent.of_timeline_eq (timeline_notifyPeer a peer aspects)
  | poll p => exact coherent.of_timeline_eq (timeline_addPoll a p)

theorem coherent_after (changes : List Change) : (after changes).Coherent := by
  induction changes using List.reverseRecOn with
  | nil => exact coherent_empty
  | append_singleton changes c ih =>
    rw [after_append_singleton]
    exact ih.apply c

theorem get?_timeline_apply (a : Account) (c : Change) (s : Bool) (id : FullId) :
    ((a.apply c).timeline s).get? id =
      if c.place? = some (s, id) then c.message? else (a.timeline s).get? id := by
  cases c with
  | message m =>
    simp only [apply, get?_timeline_addMessage, Change.place?, Change.message?, Option.some.injEq,
      Prod.mk.injEq, eq_comm]
  | removal r j =>
    simp only [apply, timeline_removeMessage, get?_timeline_takeOut, Change.place?,
      Change.message?, Option.some.injEq, Prod.mk.injEq, eq_comm]
  | peer p => simp [apply, Change.place?]
  | migration chat channel => simp [apply, Change.place?]
  | peerNotice peer aspects => simp [apply, Change.place?]
  | poll p => simp [apply, Change.place?]

private theorem get?_timeline_foldl_apply {s : Bool} {id : FullId} {changes : List Change}
    (elsewhere : ∀ c ∈ changes, c.place? ≠ some (s, id)) (a : Account) :
    ((changes.foldl apply a).timeline s).get? id = (a.timeline s).get? id := by
  induction changes generalizing a with
  | nil => rfl
  | cons c changes ih =>
    rw [List.foldl_cons, ih (fun d hd => elsewhere d (List.mem_cons_of_mem c hd)),
      get?_timeline_apply, if_neg (elsewhere c List.mem_cons_self)]

/-- What stands at a place was added there, and nothing has concerned the place since. -/
theorem exists_of_get?_timeline_after {changes : List Change} {s : Bool} {id : FullId}
    {m : Message} (stored : ((after changes).timeline s).get? id = some m) :
    ∃ earlier later, changes = earlier ++ .message m :: later ∧
      ∀ c ∈ later, c.place? ≠ some (s, id) := by
  induction changes using List.reverseRecOn with
  | nil => cases s <;> cases stored
  | append_singleton changes c ih =>
    rw [after_append_singleton, get?_timeline_apply] at stored
    split at stored
    · next place =>
      have added : c = .message m := by
        cases c <;> simp_all [Change.message?]
      exact ⟨changes, [], by rw [added], by simp⟩
    · next elsewhere =>
      obtain ⟨earlier, later, rfl, untouched⟩ := ih stored
      refine ⟨earlier, later ++ [c], by simp, ?_⟩
      intro d hd
      rcases List.mem_append.mp hd with hd | hd
      · exact untouched d hd
      · rwa [List.mem_singleton.mp hd]

/-- Whatever has happened to an account, every stored message stands under its own number in the
timeline that it names, a media list shows a number if and only if the message stored there belongs
to the list, and what is stored at a place is the message added there last, unless it was removed
since. -/
theorem timelines_after_changes (changes : List Change) :
    (∀ s id m, ((after changes).timeline s).get? id = some m → m.id = id ∧ m.scheduled = s) ∧
    (∀ s p k n, n ∈ ((after changes).timeline s).listed p k ↔
      ∃ m, ((after changes).timeline s).get? ⟨p, n⟩ = some m ∧ k ∈ m.lists) ∧
    (∀ s id m, ((after changes).timeline s).get? id = some m ↔
      ∃ earlier later, changes = earlier ++ .message m :: later ∧
        m.scheduled = s ∧ m.id = id ∧ ∀ c ∈ later, c.place? ≠ some (s, id)) := by
  have coherent := coherent_after changes
  refine ⟨fun s id m stored => coherent.stored stored, fun s p k n => coherent.listed, ?_⟩
  intro s id m
  constructor
  · intro stored
    obtain ⟨own, named⟩ := coherent.stored stored
    obtain ⟨earlier, later, split, untouched⟩ := exists_of_get?_timeline_after stored
    exact ⟨earlier, later, split, named, own, untouched⟩
  · rintro ⟨earlier, later, rfl, rfl, rfl, untouched⟩
    rw [after, List.foldl_append, List.foldl_cons, get?_timeline_foldl_apply untouched,
      get?_timeline_apply]
    exact if_pos rfl

end PeerPanel.Account
