import PeerPanel.Search.Finder
import PeerPanel.Signal.Watched

/-!
A search that waits for the typing to pause.

A new query is put off until its delay has passed, and a newer one takes its place and starts the
delay anew. Queries that need no search are applied at once. The text of the applied query is
published each time a query is applied or restored.

What waits, the alarm that was set for it and the alarms that run are kept apart. An alarm that runs
goes off at its time, whatever waits by then, and only one that is held can be called off. That an
alarm runs for the waiting query and no other one does is a theorem, and not part of the type.
-/

set_option autoImplicit false
set_option relaxedAutoImplicit false

namespace PeerPanel.Search

/-- A time in milliseconds, and the number of the step that is made then. -/
structure Moment where
  time : Nat
  step : Nat
  deriving DecidableEq

/-- The time when a wait is over that begins now. -/
def Moment.after (m : Moment) (delay : Nat) : Nat := m.time + delay

/-- An alarm that goes off at a time. It is known by the number of the step that has set it. -/
structure Alarm where
  due : Nat
  setAt : Nat
  deriving DecidableEq

/-- A finder with a query that waits for its delay. -/
structure Debounce where
  delay : Nat
  finder : Finder
  waiting : Option Query := none
  /-- The alarm that can be called off. -/
  alarm : Option Alarm := none
  /-- The alarms that were set and have neither gone off nor been called off. -/
  running : List Alarm := []
  appliedText : Watched String
  deriving DecidableEq

namespace Debounce

def ofSaved (a : Account) (delay : Nat) (s : Saved) : Debounce :=
  { delay, finder := Finder.ofSaved a s, appliedText := { value := s.query.text } }

def applied (d : Debounce) : Query := d.finder.applied

/-- Drop the waiting query, and call off the alarm that is held. -/
def cancel (d : Debounce) : Debounce :=
  { d with
    waiting := none
    alarm := none
    running := match d.alarm with
      | some alarm => d.running.erase alarm
      | none => d.running }

def applyNow (d : Debounce) (a : Account) (q : Query) : Debounce :=
  let idle := d.cancel
  { idle with
    finder := idle.finder.apply a q
    appliedText := idle.appliedText.send q.text }

/-- Put a query off until an alarm goes off, in the place of what waits. -/
def putOff (d : Debounce) (q : Query) (alarm : Alarm) : Debounce :=
  let idle := d.cancel
  { idle with waiting := some q, alarm := some alarm, running := idle.running ++ [alarm] }

/-- Ask for a query after a delay of its own. The applied query only cancels what waits; a query
that needs no search is applied at once. -/
def requestAfter (d : Debounce) (a : Account) (now : Moment) (q : Query) (delay : Nat) :
    Debounce :=
  if d.applied = q then d.cancel
  else if d.finder.knows q then d.applyNow a q
  else d.putOff q { due := now.after delay, setAt := now.step }

/-- Ask for a query after the usual delay. -/
def request (d : Debounce) (a : Account) (now : Moment) (q : Query) : Debounce :=
  d.requestAfter a now q d.delay

/-- An alarm goes off: none is held any longer, and the query that waits is applied. -/
def ring (d : Debounce) (a : Account) (alarm : Alarm) : Debounce :=
  let silent := { d with running := d.running.erase alarm, alarm := none, waiting := none }
  match d.waiting with
  | some q => silent.applyNow a q
  | none => silent

/-- An alarm goes off if it still runs. -/
def goOff (d : Debounce) (a : Account) (alarm : Alarm) : Debounce :=
  if alarm ∈ d.running then d.ring a alarm else d

/-- Let the time come: the alarms that are due by then go off, the earliest first. -/
def reach (d : Debounce) (a : Account) (time : Nat) : Debounce :=
  ((d.running.filter (·.due ≤ time)).mergeSort (·.due ≤ ·.due)).foldl (·.goOff a ·) d

/-- Put the search aside. A query that waits is put aside in the place of the applied one, and its
hits are not known. -/
def save (d : Debounce) : Saved :=
  match d.waiting with
  | some q => { query := q }
  | none => d.finder.save

def restore (d : Debounce) (a : Account) (s : Saved) : Debounce :=
  let idle := d.cancel
  { idle with
    finder := idle.finder.restore a s
    appliedText := idle.appliedText.send s.query.text }

/-- The query that the search is heading for: the waiting one, else the applied one. -/
def goal (d : Debounce) : Query := d.waiting.getD d.applied

end Debounce

end PeerPanel.Search
