import PeerPanel.Signal.Feed

/-!
How a reader of a feed comes along.

A reader stands at a place, and what was sent since (`Feed.since`) is what it has not met. The
readers here are those that accept to be told of missed notices. Such a reader stops empty-handed
only where nothing is held back from it and nothing that it accepts was sent since
(`next?_eq_none`). Otherwise it is told that it has fallen behind, or goes on to the first notice
that it accepts (`next?_eq_some`).
-/

set_option autoImplicit false
set_option relaxedAutoImplicit false

namespace PeerPanel.Feed

variable {α β : Type} {f : Feed α} {accept : Received α → Option β} {place next : Nat} {b : β}

/-- What was sent since a place was reached, also what is no longer held. -/
def since (f : Feed α) (place : Nat) : List α := f.sent.drop place

theorem since_place (f : Feed α) : f.since f.place = [] := List.drop_length

theorem length_since (f : Feed α) (place : Nat) : (f.since place).length = f.place - place :=
  List.length_drop

theorem drop_since (f : Feed α) (place count : Nat) :
    (f.since place).drop count = f.since (place + count) :=
  List.drop_drop

theorem since_send (inside : place ≤ f.place) (a : α) :
    (f.send a).since place = f.since place ++ [a] :=
  List.drop_append_of_le_length inside

theorem place_upTo {stop : Nat} (sent : stop ≤ f.place) : (f.upTo stop).place = stop := by
  simp only [upTo, Feed.place, List.length_take] at *
  omega

theorem place_le_stop (f : Feed α) (place : Nat) : place ≤ f.stop place := by
  unfold Feed.stop stride
  split <;> omega

theorem since_upTo (forward : place ≤ next) :
    f.since place = (f.upTo next).since place ++ f.since next := by
  have parts := List.take_append_drop (next - place) (f.sent.drop place)
  rw [List.take_drop, List.drop_drop, Nat.add_sub_cancel' forward] at parts
  exact parts.symm

theorem mem_since_upTo_or (forward : place ≤ next) {a : α} (sent : a ∈ f.since place) :
    a ∈ (f.upTo next).since place ∨ a ∈ f.since next := by
  rwa [since_upTo forward, List.mem_append] at sent

theorem oldest_send (f : Feed α) (a : α) : f.oldest ≤ (f.send a).oldest := by
  have longer : (f.send a).sent.length = f.sent.length + 1 := f.place_send a
  have same : (f.send a).capacity = f.capacity := rfl
  simp only [oldest, longer, same]
  omega

theorem oldest_le_place (f : Feed α) : f.oldest ≤ f.place := Nat.sub_le _ _

theorem oldest_le_iff : f.oldest ≤ place ↔ (f.since place).length ≤ f.capacity := by
  rw [length_since]
  simp only [oldest, Feed.place]
  omega

theorem seek_eq_none {l : List α} (h : seek accept l place = (none, next)) :
    next = place + l.length ∧ ∀ a ∈ l, accept (.notice a) = none := by
  induction l generalizing place with
  | nil =>
    cases h
    exact ⟨rfl, by simp⟩
  | cons a rest ih =>
    rw [seek] at h
    cases ha : accept (.notice a) with
    | some b => rw [ha] at h; cases h
    | none =>
      rw [ha] at h
      obtain ⟨stop, refused⟩ := ih h
      refine ⟨by rw [stop, List.length_cons]; omega, ?_⟩
      intro x hx
      rcases List.mem_cons.mp hx with rfl | hx
      · exact ha
      · exact refused x hx

private theorem seek_eq_some {l : List α} (h : seek accept l place = (some b, next)) :
    ∃ passed a rest, l = passed ++ a :: rest ∧ next = place + passed.length + 1 ∧
      (∀ x ∈ passed, accept (.notice x) = none) ∧ accept (.notice a) = some b := by
  induction l generalizing place with
  | nil => cases h
  | cons a rest ih =>
    rw [seek] at h
    cases ha : accept (.notice a) with
    | some c =>
      rw [ha] at h
      cases h
      exact ⟨[], a, rest, rfl, rfl, by simp, ha⟩
    | none =>
      rw [ha] at h
      obtain ⟨passed, x, later, split, stop, refused, taken⟩ := ih h
      refine ⟨a :: passed, x, later, by rw [split]; rfl, ?_, ?_, taken⟩
      · rw [stop, List.length_cons]
        omega
      · intro y hy
        rcases List.mem_cons.mp hy with rfl | hy
        · exact ha
        · exact refused y hy

private theorem lt_of_seek_drop_eq_some
    (h : seek accept (f.sent.drop place) place = (some b, next)) :
    place < next ∧ next ≤ f.place := by
  obtain ⟨passed, a, rest, split, stop, -⟩ := seek_eq_some h
  have count := congrArg List.length split
  rw [List.length_drop, List.length_append, List.length_cons] at count
  rw [Feed.place]
  omega

theorem lt_of_next?_eq_some (h : f.next? accept place = (some b, next)) :
    place < next ∧ next ≤ f.place := by
  unfold next? at h
  split at h
  · next behind =>
    split at h
    · cases h
      exact ⟨behind, f.oldest_le_place⟩
    · obtain ⟨further, within⟩ := lt_of_seek_drop_eq_some h
      exact ⟨Nat.lt_trans behind further, within⟩
  · exact lt_of_seek_drop_eq_some h

/-- A reader that is told of missed notices stops only at the end, and has then passed over nothing
that it accepts. -/
theorem next?_eq_none (told : ∀ count, (accept (.missed count)).isSome) (inside : place ≤ f.place)
    (h : f.next? accept place = (none, next)) :
    f.oldest ≤ place ∧ next = f.place ∧ ∀ a ∈ f.since place, accept (.notice a) = none := by
  unfold next? at h
  split at h
  · next behind =>
    obtain ⟨c, hc⟩ := Option.isSome_iff_exists.mp (told (f.oldest - place))
    rw [hc] at h
    cases h
  · next held =>
    obtain ⟨stop, refused⟩ := seek_eq_none h
    refine ⟨Nat.le_of_not_lt held, ?_, refused⟩
    rw [stop, List.length_drop]
    exact Nat.add_sub_cancel' inside

/-- A reader that gets something is told that it has fallen behind, or meets the first notice that
it accepts. -/
theorem next?_eq_some (told : ∀ count, (accept (.missed count)).isSome) (inside : place ≤ f.place)
    (h : f.next? accept place = (some b, next)) :
    place < next ∧ next ≤ f.place ∧
      ((place < f.oldest ∧ next = f.oldest ∧ accept (.missed (f.oldest - place)) = some b) ∨
        (f.oldest ≤ place ∧ ∃ passed a, f.since place = passed ++ a :: f.since next ∧
          (∀ x ∈ passed, accept (.notice x) = none) ∧ accept (.notice a) = some b)) := by
  unfold next? at h
  split at h
  · next behind =>
    obtain ⟨c, hc⟩ := Option.isSome_iff_exists.mp (told (f.oldest - place))
    rw [hc] at h
    cases h
    exact ⟨behind, f.oldest_le_place, .inl ⟨behind, rfl, hc⟩⟩
  · next held =>
    obtain ⟨passed, a, rest, split, stop, refused, taken⟩ := seek_eq_some h
    have count : f.place - place = passed.length + (rest.length + 1) := by
      rw [← length_since, since, split, List.length_append, List.length_cons]
    have behind : f.since next = rest := by
      rw [since, stop, Nat.add_assoc, ← List.drop_drop, split, ← List.drop_drop, List.drop_left]
      rfl
    refine ⟨by omega, by omega, .inr ⟨Nat.le_of_not_lt held, passed, a, ?_, refused, taken⟩⟩
    rw [behind]
    exact split

theorem next?_cases_of_accepts_all (accept : Received α → Option β)
    (accepts : ∀ r, (accept r).isSome) (inside : place ≤ f.place) :
    (f.since place = [] ∧ f.next? accept place = (none, place)) ∨
      ∃ b next, f.next? accept place = (some b, next) ∧ place < next ∧ next ≤ f.place ∧
        (f.oldest ≤ place → next = place + 1) := by
  have nothing {l : List α} (refused : ∀ a ∈ l, accept (.notice a) = none) : l = [] := by
    refine List.eq_nil_iff_forall_not_mem.mpr fun a mem => ?_
    have accepted := accepts (.notice a)
    rw [refused a mem] at accepted
    cases accepted
  rcases met : f.next? accept place with ⟨_ | b, next⟩
  · obtain ⟨-, rfl, refused⟩ := next?_eq_none (fun count => accepts (.missed count)) inside met
    have read := nothing refused
    have level := congrArg List.length read
    rw [length_since, List.length_nil] at level
    exact .inl ⟨read, by rw [Nat.le_antisymm inside (Nat.le_of_sub_eq_zero level)]⟩
  · obtain ⟨further, within, how⟩ := next?_eq_some (fun count => accepts (.missed count)) inside met
    refine .inr ⟨b, next, rfl, further, within, fun held => ?_⟩
    rcases how with ⟨missed, -⟩ | ⟨-, passed, a, split, refused, -⟩
    · exact absurd held (Nat.not_le.mpr missed)
    · have count := congrArg List.length split
      rw [nothing refused, List.nil_append, List.length_cons, length_since, length_since] at count
      omega

private theorem seek_append_cons {passed rest : List α} {a : α}
    (refused : ∀ x ∈ passed, accept (.notice x) = none) (taken : accept (.notice a) = some b) :
    seek accept (passed ++ a :: rest) place = (some b, place + passed.length + 1) := by
  induction passed generalizing place with
  | nil => simp only [List.nil_append, seek, taken, List.length_nil, Nat.add_zero]
  | cons x passed ih =>
    have first := refused x List.mem_cons_self
    have later := @ih (place + 1) fun y hy => refused y (List.mem_cons_of_mem x hy)
    simp only [List.cons_append, seek, first, later, List.length_cons]
    congr 1
    omega

private theorem seek_of_refused {l : List α} (refused : ∀ x ∈ l, accept (.notice x) = none) :
    seek accept l place = (none, place + l.length) := by
  induction l generalizing place with
  | nil => rfl
  | cons x l ih =>
    have first := refused x List.mem_cons_self
    have later := @ih (place + 1) fun y hy => refused y (List.mem_cons_of_mem x hy)
    simp only [seek, first, later, List.length_cons]
    congr 1
    omega

theorem exists_next?_of_split {passed rest : List α} {a : α} (held : f.oldest ≤ place)
    (split : f.since place = passed ++ a :: rest)
    (refused : ∀ x ∈ passed, accept (.notice x) = none) (taken : accept (.notice a) = some b) :
    ∃ next, f.next? accept place = (some b, next) ∧ f.since next = rest := by
  refine ⟨place + passed.length + 1, ?_, ?_⟩
  · rw [next?, if_neg (Nat.not_lt.mpr held)]
    exact (congrArg (seek accept · place) split).trans (seek_append_cons refused taken)
  · rw [Nat.add_assoc, ← drop_since, split, ← List.drop_drop, List.drop_left]
    rfl

theorem next?_of_refused (held : f.oldest ≤ place) (inside : place ≤ f.place)
    (refused : ∀ x ∈ f.since place, accept (.notice x) = none) :
    f.next? accept place = (none, f.place) := by
  rw [next?, if_neg (Nat.not_lt.mpr held)]
  refine (seek_of_refused refused).trans ?_
  rw [length_since]
  exact congrArg (Prod.mk none) (Nat.add_sub_cancel' inside)

end PeerPanel.Feed
