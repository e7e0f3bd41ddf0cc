import PeerPanel.Proofs.Search.Finder
import PeerPanel.Search.Debounce

/-!
A search that waits has one alarm that runs, and it is the one that can be called off.

A query that waits, the alarm that is held for it and the alarms that run are three things, which
every operation has to change together. `Debounce.Holds` says that they belong together, and names
the query with its alarm. There is one law for each operation: with what is held before it, what is
held after it. From the laws follows which query a search is heading for (`Debounce.goal`).
-/

set_option autoImplicit false
set_option relaxedAutoImplicit false

namespace PeerPanel.Search

def Moment.next (m : Moment) (ms : Nat) : Moment := { time := m.time + ms, step := m.step + 1 }

theorem Moment.after_le_after_next (m : Moment) (ms delay : Nat) :
    m.after delay ≤ (m.next ms).after delay :=
  Nat.add_le_add_right (Nat.le_add_right m.time ms) _

/-- A query that waits, with the alarm that was set for it. -/
abbrev Pending := Option (Query × Alarm)

namespace Debounce

/-- A search holds a query with its alarm, or none, and no other alarm runs. -/
structure Holds (d : Debounce) (pending : Pending) : Prop where
  waiting : d.waiting = pending.map Prod.fst
  alarm : d.alarm = pending.map Prod.snd
  running : d.running = (pending.map Prod.snd).toList

variable {d : Debounce} {pending : Pending} (a : Account) (now : Moment) (q : Query) (s : Saved)

theorem holds_ofSaved (delay : Nat) : (ofSaved a delay s).Holds none := ⟨rfl, rfl, rfl⟩

theorem Holds.cancel (held : d.Holds pending) : d.cancel.Holds none where
  waiting := rfl
  alarm := rfl
  running := by
    simp only [Debounce.cancel, held.alarm, held.running]
    cases pending <;> simp

theorem Holds.applyNow (held : d.Holds pending) : (d.applyNow a q).Holds none :=
  ⟨rfl, rfl, held.cancel.running⟩

theorem Holds.restore (held : d.Holds pending) : (d.restore a s).Holds none :=
  ⟨rfl, rfl, held.cancel.running⟩

theorem Holds.putOff (held : d.Holds pending) (alarm : Alarm) :
    (d.putOff q alarm).Holds (some (q, alarm)) where
  waiting := rfl
  alarm := rfl
  running := by simp [Debounce.putOff, held.cancel.running]

theorem Holds.requestAfter (held : d.Holds pending) (delay : Nat) :
    ∃ next, (d.requestAfter a now q delay).Holds next ∧
      ∀ p ∈ next, p.2.due = now.after delay := by
  unfold Debounce.requestAfter
  split
  · exact ⟨none, held.cancel, by simp⟩
  · split
    · exact ⟨none, held.applyNow a q, by simp⟩
    · exact ⟨_, held.putOff q _, by simp⟩

theorem Holds.ring {alarm : Alarm} (held : d.Holds (some (q, alarm))) :
    d.ring a alarm =
      { d with
        finder := d.finder.apply a q
        waiting := none
        alarm := none
        running := []
        appliedText := d.appliedText.send q.text } := by
  obtain ⟨waiting, -, running⟩ := held
  simp only [Option.map_some] at waiting
  simp [Debounce.ring, waiting, running, Debounce.applyNow, Debounce.cancel]

/-- Either nothing is due by a time, or the one alarm that runs has gone off. -/
theorem Holds.reach_cases (held : d.Holds pending) (time : Nat) :
    (d.reach a time = d ∧ ∀ p ∈ pending, time < p.2.due) ∨
      ∃ q alarm, pending = some (q, alarm) ∧ alarm.due ≤ time ∧
        d.reach a time = d.ring a alarm := by
  have running := held.running
  cases pending with
  | none =>
    simp only [Option.map_none, Option.toList_none] at running
    exact .inl ⟨by simp [Debounce.reach, running], by simp⟩
  | some p =>
    simp only [Option.map_some, Option.toList_some] at running
    by_cases due : p.2.due ≤ time
    · refine .inr ⟨p.1, p.2, rfl, due, ?_⟩
      simp [Debounce.reach, Debounce.goOff, running, due]
    · refine .inl ⟨by simp [Debounce.reach, running, due], ?_⟩
      intro r hr
      cases hr
      omega

theorem Holds.reach (held : d.Holds pending) (time : Nat) :
    (d.reach a time).Holds (pending.filter fun p => time < p.2.due) := by
  rcases held.reach_cases a time with ⟨same, ahead⟩ | ⟨q, alarm, rfl, due, rung⟩
  · have kept : (pending.filter fun p => time < p.2.due) = pending := by
      cases pending with
      | none => rfl
      | some p => simp [Option.filter, ahead p rfl]
    rw [same, kept]
    exact held
  · have passed : ¬ time < alarm.due := by omega
    rw [rung, held.ring]
    simp only [Option.filter, passed, decide_false, Bool.false_eq_true, if_false]
    exact ⟨rfl, rfl, rfl⟩

@[simp] theorem delay_requestAfter (delay : Nat) :
    (d.requestAfter a now q delay).delay = d.delay := by
  unfold Debounce.requestAfter
  split
  · rfl
  · split <;> rfl

private theorem Holds.delay_reach (held : d.Holds pending) (time : Nat) :
    (d.reach a time).delay = d.delay := by
  rcases held.reach_cases a time with ⟨same, -⟩ | ⟨q, alarm, rfl, -, rung⟩
  · rw [same]
  · rw [rung, held.ring]

theorem goal_requestAfter (delay : Nat) : (d.requestAfter a now q delay).goal = q := by
  unfold Debounce.requestAfter
  split
  · next same => exact same
  · split <;> rfl

private theorem Holds.goal (held : d.Holds pending) :
    d.goal = (pending.map Prod.fst).getD d.applied := by
  rw [Debounce.goal, held.waiting]

private theorem Holds.goal_reach (held : d.Holds pending) (time : Nat) :
    (d.reach a time).goal = d.goal := by
  rcases held.reach_cases a time with ⟨same, -⟩ | ⟨q, alarm, rfl, -, rung⟩
  · rw [same]
  · rw [rung, held.goal, held.ring]
    rfl

/-- A search with its usual delay that remembers what it applies, and in which nothing waits beyond
a time. -/
structure Sound (delay limit : Nat) (d : Debounce) : Prop where
  usual : d.delay = delay
  remembered : d.finder.known.contains d.applied = true
  pending : ∃ pending, d.Holds pending ∧ ∀ p ∈ pending, p.2.due ≤ limit

namespace Sound

variable {delay limit : Nat}

theorem ofSaved (delay limit : Nat) : (ofSaved a delay s).Sound delay limit where
  usual := rfl
  remembered := (Finder.contains_known_restore _ _ _ _).mpr (.inl rfl)
  pending := ⟨none, holds_ofSaved a s delay, by simp⟩

theorem mono (h : d.Sound delay limit) {later : Nat} (le : limit ≤ later) :
    d.Sound delay later := by
  obtain ⟨pending, held, due⟩ := h.pending
  exact { h with pending := ⟨pending, held, fun p hp => Nat.le_trans (due p hp) le⟩ }

theorem requestAfter (h : d.Sound delay limit) (own : Nat) (inside : now.after own ≤ limit) :
    (d.requestAfter a now q own).Sound delay limit where
  usual := (delay_requestAfter a now q own).trans h.usual
  remembered := by
    unfold Debounce.requestAfter
    split
    · exact h.remembered
    · split
      · exact (Finder.contains_known_apply _ _ _ _).mpr (.inl rfl)
      · exact h.remembered
  pending := by
    obtain ⟨pending, held, -⟩ := h.pending
    obtain ⟨next, after, due⟩ := held.requestAfter a now q own
    exact ⟨next, after, fun p hp => Nat.le_trans (Nat.le_of_eq (due p hp)) inside⟩

theorem reach (h : d.Sound delay limit) (time : Nat) : (d.reach a time).Sound delay limit := by
  obtain ⟨pending, held, due⟩ := h.pending
  refine ⟨(held.delay_reach a time).trans h.usual, ?_, _, held.reach a time, ?_⟩
  · rcases held.reach_cases a time with ⟨same, -⟩ | ⟨q, alarm, rfl, -, rung⟩
    · rw [same]
      exact h.remembered
    · rw [rung, held.ring]
      exact (Finder.contains_known_apply _ _ _ _).mpr (.inl rfl)
  · intro p hp
    exact due p (Option.mem_filter_iff.mp hp).1

theorem waiting_reach (h : d.Sound delay limit) {time : Nat} (reached : limit ≤ time) :
    (d.reach a time).waiting = none := by
  obtain ⟨pending, held, due⟩ := h.pending
  rw [(held.reach a time).waiting, Option.map_eq_none_iff, Option.filter_eq_none_iff]
  intro p hp
  have := due p hp
  simp only [decide_eq_true_eq]
  omega

theorem waiting_reach_of_idle (h : d.Sound delay limit) (idle : d.waiting = none) (time : Nat) :
    (d.reach a time).waiting = none := by
  obtain ⟨pending, held, -⟩ := h.pending
  rw [held.waiting, Option.map_eq_none_iff] at idle
  subst idle
  exact (held.reach a time).waiting

theorem goal_reach (h : d.Sound delay limit) (time : Nat) : (d.reach a time).goal = d.goal := by
  obtain ⟨pending, held, -⟩ := h.pending
  exact held.goal_reach a time

end Sound

end Debounce

end PeerPanel.Search
