import Mathlib.Data.List.Induction
import PeerPanel.Proofs.Transfers.Calls

/-!
The list of transfers over any sequence of calls.

What a call does to the list does not depend on how much of each transfer is ready
(`Call.outline`). So the list, with this set aside, can be read off the calls: it holds the starts
that no later call has finished, in their order (`unfinished`).
-/

set_option autoImplicit false
set_option relaxedAutoImplicit false

namespace PeerPanel

/-- A transfer as it was when it was started. -/
def Transfer.begun (x : Transfer) : Transfer := { x with ready := 0 }

namespace Transfers

/-- The starts among some calls that no later one finishes. -/
def unfinished : List Call → List Transfer
  | [] => []
  | .start item started total :: later =>
    if .finish item ∈ later then unfinished later else { item, started, total } :: unfinished later
  | .progress .. :: later => unfinished later
  | .finish _ :: later => unfinished later

/-- What a call makes of a list of transfers of which nothing is ready. -/
def Call.outline (list : List Transfer) : Call → List Transfer
  | start item started total => list ++ [{ item, started, total }]
  | progress .. => list
  | finish item => list.filter (·.item ≠ item)

private theorem unfinished_append_singleton (calls : List Call) (c : Call) :
    unfinished (calls ++ [c]) = c.outline (unfinished calls) := by
  induction calls with
  | nil => cases c <;> rfl
  | cons d later ih =>
    cases d with
    | start item started total =>
      rw [List.cons_append, unfinished, unfinished, ih]
      by_cases finished : Call.finish item ∈ later
      · rw [if_pos (List.mem_append_left _ finished), if_pos finished]
      · rw [if_neg finished]
        cases c with
        | start => simp [finished, Call.outline]
        | progress => simp [finished, Call.outline]
        | finish other =>
          -- the last call may be the one that finishes the first start
          by_cases same : item = other
          · simp [same, Call.outline]
          · simp [finished, same, Call.outline]
    | progress item ready => exact ih
    | finish item => exact ih

variable {t : Transfers} {item : FullId} {ready : Nat} {list : List Transfer}

private theorem tracks_iff : t.tracks item = true ↔ ∃ x ∈ t.list, x.item = item := by
  simp [tracks]

private theorem map_begun_note :
    (note item ready list).map Transfer.begun = list.map Transfer.begun := by
  induction list with
  | nil => rfl
  | cons x rest ih =>
    rw [note]
    split
    · rfl
    · rw [List.map_cons, List.map_cons, ih]

private theorem note_append_cons {front back : List Transfer} {x : Transfer}
    (earlier : ∀ y ∈ front, y.item ≠ item) (own : x.item = item) :
    note item ready (front ++ x :: back) =
      front ++ { x with ready := min ready x.total } :: back := by
  induction front with
  | nil => rw [List.nil_append, note, if_pos own, List.nil_append]
  | cons y front ih =>
    rw [List.cons_append, note, if_neg (earlier y List.mem_cons_self),
      ih fun z mem => earlier z (List.mem_cons_of_mem y mem), List.cons_append]

private theorem filter_of_refused (refused : t.tracks item = false) :
    t.list.filter (·.item ≠ item) = t.list := by
  refine List.filter_eq_self.mpr fun x mem => ?_
  rw [decide_eq_true_eq]
  intro own
  rw [tracks_iff.mpr ⟨x, mem, own⟩] at refused
  cases refused

private theorem map_begun_apply (t : Transfers) (c : Call) :
    (t.apply c).list.map Transfer.begun = c.outline (t.list.map Transfer.begun) := by
  cases accepted : t.accepts c with
  | true =>
    rw [apply_of_accepts accepted]
    cases c with
    | start item started total => exact List.map_append
    | progress item ready => exact map_begun_note
    | finish item =>
      rw [Call.outline, List.filter_map]
      rfl
  | false =>
    rw [apply_of_refused accepted]
    cases c with
    | start => cases accepted
    | progress => rfl
    | finish item =>
      rw [Call.outline, List.filter_map]
      exact congrArg _ (filter_of_refused accepted).symm

private theorem map_begun_after (calls : List Call) :
    (after calls).list.map Transfer.begun = unfinished calls := by
  induction calls using List.reverseRecOn with
  | nil => rfl
  | append_singleton calls c ih =>
    rw [unfinished_append_singleton, ← ih, after, List.foldl_append]
    exact map_begun_apply _ c

/-- No transfer is further than its total. -/
def Bounded (list : List Transfer) : Prop := ∀ x ∈ list, x.ready ≤ x.total

private theorem Bounded.edit (h : Bounded list) (c : Call) : Bounded (c.edit list) := by
  cases c with
  | start item started total =>
    intro x mem
    rcases List.mem_append.mp mem with old | new
    · exact h x old
    · rw [List.mem_singleton.mp new]
      exact Nat.zero_le _
  | progress item ready =>
    show Bounded (note item ready list)
    induction list with
    | nil => exact h
    | cons x rest ih =>
      have first := h x List.mem_cons_self
      have others : Bounded rest := fun y mem => h y (List.mem_cons_of_mem x mem)
      rw [note]
      split
      · exact List.forall_mem_cons.mpr ⟨Nat.min_le_right .., others⟩
      · exact List.forall_mem_cons.mpr ⟨first, ih others⟩
  | finish item => exact fun x mem => h x (List.mem_filter.mp mem).1

private theorem bounded_after (calls : List Call) : Bounded (after calls).list := by
  induction calls using List.reverseRecOn with
  | nil => nofun
  | append_singleton calls c ih =>
    rw [after, List.foldl_append]
    show Bounded ((after calls).apply c).list
    cases accepted : (after calls).accepts c with
    | true =>
      rw [apply_of_accepts accepted]
      exact ih.edit c
    | false => rwa [apply_of_refused accepted]

/-- After any calls, no transfer is further than its total, and the list holds the starts that no
later call has finished, in their order. Finishing an item succeeds if it has a transfer, and takes
all of its transfers out; noting progress succeeds if it has one, and changes how much is ready of
the first one. A call that is refused changes and publishes nothing, and any other call publishes
one notice. -/
theorem unfinished_transfers_listed (calls : List Call) :
    let t := after calls
    (∀ x ∈ t.list, x.ready ≤ x.total) ∧
    t.list.map Transfer.begun = unfinished calls ∧
    (∀ item, ((t.finish item).1 = true ↔ ∃ x ∈ t.list, x.item = item) ∧
      (t.finish item).2.list = t.list.filter (·.item ≠ item)) ∧
    (∀ item ready, ((t.progress item ready).1 = true ↔ ∃ x ∈ t.list, x.item = item) ∧
      ∀ front x back, t.list = front ++ x :: back → (∀ y ∈ front, y.item ≠ item) →
        x.item = item →
        (t.progress item ready).2.list =
          front ++ { x with ready := min ready x.total } :: back) ∧
    (∀ c, (t.call c).1 = false → (t.call c).2 = t) ∧
    ∀ c, (t.call c).1 = true → (t.call c).2.changes = t.changes.send () := by
  intro t
  refine ⟨bounded_after calls, map_begun_after calls, fun item => ⟨?_, ?_⟩,
    fun item ready => ⟨?_, ?_⟩, fun c refused => ?_, fun c accepted => ?_⟩
  · rw [← tracks_iff]
    exact Bool.eq_iff_iff.mp (t.fst_call (.finish item))
  · cases tracked : t.tracks item with
    | true => rw [finish, if_pos tracked]; rfl
    | false =>
      rw [finish, tracked, if_neg Bool.false_ne_true]
      exact (filter_of_refused tracked).symm
  · rw [← tracks_iff]
    exact Bool.eq_iff_iff.mp (t.fst_call (.progress item ready))
  · intro front x back split earlier own
    have tracked : t.tracks item = true :=
      tracks_iff.mpr ⟨x, by rw [split]; exact List.mem_append_right _ List.mem_cons_self, own⟩
    rw [progress, if_pos tracked]
    exact (congrArg (note item ready) split).trans (note_append_cons earlier own)
  · rw [fst_call] at refused
    exact apply_of_refused refused
  · rw [fst_call] at accepted
    exact congrArg changes (apply_of_accepts accepted)

end Transfers

end PeerPanel
