import Mathlib.Data.Finset.Insert
import PeerPanel.Proofs.Search.Pending

/-!
A search that waits for the typing to pause, as an automaton.

The automaton has an applied query, a set of queries that need no search, and at most one query that
waits, with its deadline. It knows nothing of alarms, of hits or of the account. Whatever is done
with a search, in whatever order and at whatever times, the search and the automaton show the same:
`shown_run_eq_automaton`.
-/

set_option autoImplicit false
set_option relaxedAutoImplicit false

namespace PeerPanel.Search

/-- What can be done with a search, and that time passes. -/
inductive Event
  | request (q : Query)
  | requestAfter (q : Query) (delay : Nat)
  | applyNow (q : Query)
  | restore (s : Saved)
  | wait (ms : Nat)
  deriving DecidableEq

def Event.duration : Event → Nat
  | wait ms => ms
  | _ => 0

/-- What can be seen of a search: the applied query, the waiting one, and which queries need no
search. -/
structure Shown where
  applied : Query
  waiting : Option Query
  knows : Query → Bool

namespace Debounce

def shown (d : Debounce) : Shown := ⟨d.applied, d.waiting, d.finder.knows⟩

def play (d : Debounce) (now : Moment) (a : Account) : Event → Debounce
  | .request q => d.request a now q
  | .requestAfter q delay => d.requestAfter a now q delay
  | .applyNow q => d.applyNow a q
  | .restore s => d.restore a s
  | .wait ms => d.reach a (now.time + ms)

/-- Events one after the other, each in the account as it is then. -/
def run (d : Debounce) (now : Moment) : List (Account × Event) → Debounce
  | [] => d
  | (a, e) :: rest => (d.play now a e).run (now.next e.duration) rest

/-- What an event does to the applied query: nothing, or it applies a query and publishes its text,
or it goes back to one put aside and publishes that. -/
inductive Played (d : Debounce) (a : Account) (d' : Debounce) : Event → Prop
  | stays {e : Event} : d'.finder = d.finder → d'.appliedText = d.appliedText → Played d a d' e
  | applies {e : Event} (q : Query) : (∀ s, e ≠ .restore s) → d'.finder = d.finder.apply a q →
      d'.appliedText = d.appliedText.send q.text → Played d a d' e
  | restores (s : Saved) : d'.finder = d.finder.restore a s →
      d'.appliedText = d.appliedText.send s.query.text → Played d a d' (.restore s)

variable {d d' : Debounce} {pending : Pending} {a : Account} {e : Event}

theorem Holds.played (held : d.Holds pending) (now : Moment) (a : Account) (e : Event) :
    d.Played a (d.play now a e) e := by
  have request (q : Query) (delay : Nat) {e : Event} (other : ∀ s, e ≠ .restore s) :
      d.Played a (d.requestAfter a now q delay) e := by
    unfold Debounce.requestAfter
    split
    · exact .stays rfl rfl
    · split
      · exact .applies q other rfl rfl
      · exact .stays rfl rfl
  cases e with
  | request q => exact request q d.delay (by simp)
  | requestAfter q delay => exact request q delay (by simp)
  | applyNow q => exact .applies q (by simp) rfl rfl
  | restore s => exact .restores s rfl rfl
  | wait ms =>
    rcases held.reach_cases a (now.time + ms) with ⟨same, -⟩ | ⟨q, alarm, rfl, -, rung⟩
    · exact .stays (congrArg finder same) (congrArg appliedText same)
    · rw [play, rung, held.ring]
      exact .applies q (by simp) rfl rfl

theorem Holds.play (held : d.Holds pending) (now : Moment) (a : Account) (e : Event) :
    ∃ next, (d.play now a e).Holds next := by
  have request (q : Query) (delay : Nat) : ∃ next, (d.requestAfter a now q delay).Holds next := by
    obtain ⟨next, after, -⟩ := held.requestAfter a now q delay
    exact ⟨next, after⟩
  cases e with
  | request q => exact request q d.delay
  | requestAfter q delay => exact request q delay
  | applyNow q => exact ⟨none, held.applyNow a q⟩
  | restore s => exact ⟨none, held.restore a s⟩
  | wait ms => exact ⟨_, held.reach a (now.time + ms)⟩

end Debounce

/-- The applied query, the queries that need no search, and the query that waits with its
deadline. -/
structure Automaton where
  applied : Query
  cached : Finset Query
  pending : Option (Query × Nat) := none

namespace Automaton

def start (q : Query) : Automaton := { applied := q, cached := {q} }

def cancel (m : Automaton) : Automaton := { m with pending := none }

/-- Apply a query now. An empty text forgets all others. -/
def apply (m : Automaton) (q : Query) : Automaton :=
  { applied := q, cached := if q.text = "" then {q} else insert q m.cached }

/-- Make a query the applied one without forgetting any. -/
def restore (m : Automaton) (q : Query) : Automaton :=
  { applied := q, cached := insert q m.cached }

def request (m : Automaton) (q : Query) (deadline : Nat) : Automaton :=
  if m.applied = q then m.cancel
  else if q.text = "" ∨ q ∈ m.cached then m.apply q
  else { m with pending := some (q, deadline) }

def reach (m : Automaton) (time : Nat) : Automaton :=
  match m.pending with
  | some (q, deadline) => if deadline ≤ time then m.apply q else m
  | none => m

def shown (m : Automaton) : Shown :=
  ⟨m.applied, m.pending.map Prod.fst, fun q => q.text = "" ∨ q ∈ m.cached⟩

/-- An event at a time, for a usual delay. -/
def play (delay : Nat) (m : Automaton) (time : Nat) : Event → Automaton
  | .request q => m.request q (time + delay)
  | .requestAfter q own => m.request q (time + own)
  | .applyNow q => m.apply q
  | .restore s => m.restore s.query
  | .wait ms => m.reach (time + ms)

def run (delay : Nat) (m : Automaton) (time : Nat) : List Event → Automaton
  | [] => m
  | e :: rest => (m.play delay time e).run delay (time + e.duration) rest

end Automaton

/-- A search and an automaton agree, down to the deadline of the one alarm that runs. -/
structure Refines (delay : Nat) (d : Debounce) (m : Automaton) (pending : Pending) : Prop where
  held : d.Holds pending
  usual : d.delay = delay
  applied : d.applied = m.applied
  cached : ∀ q, d.finder.known.contains q = true ↔ q ∈ m.cached
  deadline : m.pending = pending.map fun p => (p.1, p.2.due)

namespace Refines

variable {delay : Nat} {d : Debounce} {m : Automaton} {pending : Pending}

private theorem ofSaved (a : Account) (delay : Nat) (s : Saved) :
    Refines delay (.ofSaved a delay s) (.start s.query) none where
  held := Debounce.holds_ofSaved a s delay
  usual := rfl
  applied := rfl
  cached q := by
    simp [Debounce.ofSaved, Finder.ofSaved, Finder.contains_known_restore, Automaton.start]
  deadline := rfl

private theorem cancel (h : Refines delay d m pending) : Refines delay d.cancel m.cancel none :=
  { h with held := h.held.cancel, deadline := rfl }

private theorem contains_apply_iff (h : Refines delay d m pending) (a : Account) (q r : Query) :
    (d.finder.apply a q).known.contains r = true ↔ r ∈ (m.apply q).cached := by
  rw [Finder.contains_known_apply, h.cached]
  by_cases empty : q.text = ""
  · simp [Automaton.apply, empty]
  · simp [Automaton.apply, empty]

private theorem applyNow (h : Refines delay d m pending) (a : Account) (q : Query) :
    Refines delay (d.applyNow a q) (m.apply q) none where
  held := h.held.applyNow a q
  usual := h.usual
  applied := rfl
  cached := h.contains_apply_iff a q
  deadline := rfl

private theorem restore (h : Refines delay d m pending) (a : Account) (s : Saved) :
    Refines delay (d.restore a s) (m.restore s.query) none where
  held := h.held.restore a s
  usual := h.usual
  applied := rfl
  cached r := by
    have known := Finder.contains_known_restore d.finder a r s
    rw [h.cached] at known
    exact known.trans Finset.mem_insert.symm
  deadline := rfl

private theorem putOff (h : Refines delay d m pending) (q : Query) (alarm : Alarm) :
    Refines delay (d.putOff q alarm) { m with pending := some (q, alarm.due) } (some (q, alarm)) :=
  { h with held := h.held.putOff q alarm, deadline := rfl }

private theorem knows_iff (h : Refines delay d m pending) (q : Query) :
    d.finder.knows q = true ↔ q.text = "" ∨ q ∈ m.cached := by
  rw [Finder.knows_iff, h.cached]

private theorem requestAfter (h : Refines delay d m pending) (a : Account) (now : Moment)
    (q : Query) (own : Nat) :
    ∃ next, Refines delay (d.requestAfter a now q own) (m.request q (now.after own)) next := by
  unfold Debounce.requestAfter Automaton.request
  rw [h.applied]
  by_cases same : m.applied = q
  · rw [if_pos same, if_pos same]
    exact ⟨none, h.cancel⟩
  · rw [if_neg same, if_neg same]
    by_cases known : d.finder.knows q = true
    · rw [if_pos known, if_pos ((h.knows_iff q).mp known)]
      exact ⟨none, h.applyNow a q⟩
    · have search : ¬ (q.text = "" ∨ q ∈ m.cached) := fun k => known ((h.knows_iff q).mpr k)
      rw [if_neg known, if_neg search]
      exact ⟨_, h.putOff q _⟩

private theorem reach (h : Refines delay d m pending) (a : Account) (time : Nat) :
    ∃ next, Refines delay (d.reach a time) (m.reach time) next := by
  unfold Automaton.reach
  rw [h.deadline]
  rcases h.held.reach_cases a time with ⟨same, ahead⟩ | ⟨q, alarm, rfl, due, rung⟩
  · rw [same]
    refine ⟨pending, ?_⟩
    cases pending with
    | none => exact h
    | some p =>
      have later := ahead p rfl
      simp only [Option.map_some, if_neg (Nat.not_le.mpr later)]
      exact h
  · simp only [Option.map_some, if_pos due]
    rw [rung, h.held.ring]
    exact ⟨none, ⟨rfl, rfl, rfl⟩, h.usual, rfl, h.contains_apply_iff a q, rfl⟩

private theorem play (h : Refines delay d m pending) (now : Moment) (a : Account) (e : Event) :
    ∃ next, Refines delay (d.play now a e) (m.play delay now.time e) next := by
  cases e with
  | request q =>
    have usual : d.play now a (.request q) = d.requestAfter a now q delay := by
      rw [← h.usual]
      rfl
    rw [usual]
    exact h.requestAfter a now q delay
  | requestAfter q own => exact h.requestAfter a now q own
  | applyNow q => exact ⟨none, h.applyNow a q⟩
  | restore s => exact ⟨none, h.restore a s⟩
  | wait ms => exact h.reach a (now.time + ms)

private theorem run (h : Refines delay d m pending) (now : Moment)
    (events : List (Account × Event)) :
    ∃ next, Refines delay (d.run now events)
      (m.run delay now.time (events.map Prod.snd)) next := by
  induction events generalizing d m pending now with
  | nil => exact ⟨pending, h⟩
  | cons p rest ih =>
    obtain ⟨a, e⟩ := p
    obtain ⟨next, agree⟩ := h.play now a e
    exact ih agree (now.next e.duration)

private theorem shown_eq (h : Refines delay d m pending) : d.shown = m.shown := by
  have waiting : d.waiting = m.pending.map Prod.fst := by
    rw [h.held.waiting, h.deadline, Option.map_map]
    rfl
  have knows : d.finder.knows = fun q => decide (q.text = "" ∨ q ∈ m.cached) := by
    funext q
    rw [Bool.eq_iff_iff, h.knows_iff, decide_eq_true_eq]
  rw [Debounce.shown, Automaton.shown, h.applied, waiting, knows]

end Refines

/-- Whatever is done with a search, the applied query, the waiting one and the queries that need no
search are those of the automaton, and the alarms that run are due at its deadline. -/
theorem shown_run_eq_automaton (a : Account) (delay : Nat) (s : Saved) (now : Moment)
    (events : List (Account × Event)) :
    let search := (Debounce.ofSaved a delay s).run now events
    let automaton := (Automaton.start s.query).run delay now.time (events.map Prod.snd)
    search.shown = automaton.shown ∧
      search.running.map (·.due) = automaton.pending.toList.map Prod.snd := by
  intro search automaton
  obtain ⟨pending, agree⟩ := (Refines.ofSaved a delay s).run now events
  refine ⟨agree.shown_eq, ?_⟩
  rw [agree.held.running, agree.deadline]
  cases pending <;> rfl

end PeerPanel.Search
