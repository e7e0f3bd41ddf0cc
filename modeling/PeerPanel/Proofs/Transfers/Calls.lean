import PeerPanel.Transfers

/-!
What a call does to the transfers.

A call that is accepted edits the list and publishes one notice; one that is not leaves everything
as it was (`call_eq`). Beginning a transfer is always accepted, the other calls are if the item has
a transfer under way.
-/

set_option autoImplicit false
set_option relaxedAutoImplicit false

namespace PeerPanel.Transfers

inductive Call
  | start (item : FullId) (started : Int) (total : Nat)
  | progress (item : FullId) (ready : Nat)
  | finish (item : FullId)
  deriving DecidableEq

/-- Make a call, and say whether it was accepted. -/
def call (t : Transfers) : Call → Bool × Transfers
  | .start item started total => (true, t.start item started total)
  | .progress item ready => t.progress item ready
  | .finish item => t.finish item

def apply (t : Transfers) (c : Call) : Transfers := (t.call c).2

/-- The transfers after calls, made one after the other from the empty list. -/
def after (calls : List Call) : Transfers := calls.foldl apply {}

def accepts (t : Transfers) : Call → Bool
  | .start .. => true
  | .progress item _ => t.tracks item
  | .finish item => t.tracks item

/-- What an accepted call makes of the list. -/
def Call.edit (list : List Transfer) : Call → List Transfer
  | start item started total => list ++ [{ item, started, total }]
  | progress item ready => note item ready list
  | finish item => list.filter (·.item ≠ item)

theorem call_eq (t : Transfers) (c : Call) :
    t.call c = if t.accepts c then (true, t.publish (c.edit t.list)) else (false, t) := by
  cases c <;> rfl

theorem fst_call (t : Transfers) (c : Call) : (t.call c).1 = t.accepts c := by
  rw [call_eq]
  cases t.accepts c <;> rfl

theorem apply_of_accepts {t : Transfers} {c : Call} (accepted : t.accepts c = true) :
    t.apply c = t.publish (c.edit t.list) := by
  rw [apply, call_eq, if_pos accepted]

theorem apply_of_refused {t : Transfers} {c : Call} (refused : t.accepts c = false) :
    t.apply c = t := by
  rw [apply, call_eq, refused, if_neg Bool.false_ne_true]

theorem capacity_changes_apply (t : Transfers) (c : Call) :
    (t.apply c).changes.capacity = t.changes.capacity := by
  cases accepted : t.accepts c with
  | true => rw [apply_of_accepts accepted]; rfl
  | false => rw [apply_of_refused accepted]

theorem place_changes_apply (t : Transfers) (c : Call) :
    (t.apply c).changes.place = t.changes.place + (t.accepts c).toNat := by
  cases accepted : t.accepts c with
  | true =>
    rw [apply_of_accepts accepted]
    exact Feed.place_send ..
  | false =>
    rw [apply_of_refused accepted]
    rfl

private theorem capacity_changes_foldl_apply (calls : List Call) (t : Transfers) :
    (calls.foldl apply t).changes.capacity = t.changes.capacity := by
  induction calls generalizing t with
  | nil => rfl
  | cons c later ih => rw [List.foldl_cons, ih, capacity_changes_apply]

theorem capacity_changes_after (calls : List Call) : (after calls).changes.capacity = 64 :=
  capacity_changes_foldl_apply calls {}

end PeerPanel.Transfers
