import PeerPanel.Desk.Streams

/-!
Time and background work.

Background work is what the subscriptions, the alarms of searches and the migration watches do, and
the calls that the watches queue. It is done when the host lets time pass, and only then, task after
task as they stand on the agenda. The host lets a number of rounds go by first. Then it waits: all
work is done, and time goes on to the next moment at which something is due, and so on. When its
time has come the host lets as many rounds go by again, and what is not done by then has to wait
until the host lets time pass again. That all work can be done at one time, in as many rounds as are
counted here, is `Desk.isIdle_finish`.
-/

set_option autoImplicit false
set_option relaxedAutoImplicit false

namespace PeerPanel.Desk

/-- Let the time come for the alarm of a search, and wake what follows the search. -/
def ring (d : Desk) (made : Nat) : Desk := (d.mapSearch made (·.reach d.account d.time)).wake

/-- A task waits after its turn, or is tired. -/
def pauseTask (d : Desk) (isTired : Bool) (t : Task) : Desk :=
  { d with agenda := if isTired then d.agenda.tire t else d.agenda.await t }

/-- Let the subscription of a lifetime that was begun in a step read what it has ready. -/
def Life.turn (life : Life) (p : Publishers) (begun : Nat) : Life :=
  let (told, lifetime) := life.lifetime.run begun (Stream.ask p) (Stream.readyBound p)
  { lifetime, told := life.told ++ told }

/-- Let the subscription that was begun in a step read what it has ready, as far as it gets at one
go. After that it waits or is tired, unless it has ended. -/
def runFollower (d : Desk) (begun : Nat) (source : Stream) : Desk :=
  let paused := source.pause? d.publishers
  let p := paused.getD d.publishers
  let ran := { d with lives := d.lives.mapValues (·.turn p begun) }
  if (ran.followed? begun).isNone then ran else ran.pauseTask paused.isSome (.follower begun)

/-- Let the watch of a panel read what is new, as far as it gets at one go, and queue a call each
time it fires. -/
def runWatch (d : Desk) (place : String) (m : Mounted) (v : PeerView) : Desk :=
  let paused := v.pause? d.account
  let a := paused.getD d.account
  let fired := (m.panel.watchTurn m.opened a).1
  let call := Task.call { place, widget := m.widget, call := m.panel.reopening v.peer }
  let ran := { d.mapOpened m.opened fun p => (p.watchTurn m.opened a).2 with
    agenda := d.agenda.begin (List.replicate fired call) }
  ran.pauseTask paused.isSome (.watch m.opened)

/-- Put a queued call off, or make it, if the widget that it depends on is still there. -/
def runCall (d : Desk) (c : QueuedCall) : Desk :=
  if !c.isPutOff then d.pauseTask true (.call { c with isPutOff := true })
  else if (c.widget.bind d.widgetMade?).isSome then
    let seat := d.seat c.place
    { d with seats := d.seats.insert c.place { seat with told := seat.told ++ [c.call] } }
  else d

def perform (d : Desk) : Task → Desk
  | .alarm setAt =>
    match d.alarm? setAt with
    | some (alarm, made) =>
      if alarm.due ≤ d.time then d.ring made else d.pauseTask false (.alarm setAt)
    | none => d
  | .follower begun =>
    match d.followed? begun with
    | some source => d.runFollower begun source
    | none => d
  | .watch opened =>
    match d.watching? opened with
    | some (place, m, v) => d.runWatch place m v
    | none => d
  | .call c => d.runCall c

def work : Nat → Desk → Desk
  | 0, d => d
  | n + 1, d =>
    match d.agenda.next? with
    | some (t, agenda) => work n ({ d with agenda }.perform t)
    | none => d

def round (d : Desk) : Desk :=
  let worked := work Agenda.roundSize d
  { worked with agenda := worked.agenda.refresh }

/-- Let up to a number of rounds go by, until there is nothing to do. -/
def rounds : Nat → Desk → Desk
  | 0, d => d
  | n + 1, d => if d.agenda.isIdle then d else rounds n d.round

/-- How many rounds the host lets go by before and after it waits. -/
def patience : Nat := 200

/-- Let the rounds go by in which the host does not wait. -/
def settle (d : Desk) : Desk := d.rounds patience

/-- The turns that a task has before it is over or waits, if it has nothing to read. -/
def Task.turns : Task → Nat
  | .call c => if c.isPutOff then 1 else 2
  | _ => 1

def Task.isAlarm : Task → Bool
  | .alarm _ => true
  | _ => false

/-- Whether a task comes to wait. A call is put off and made, and does not. -/
def Task.mayWait : Task → Bool
  | .call _ => false
  | _ => true

def alarmTasks (a : Agenda Task) : Nat := a.tasks.countP Task.isAlarm

/-- How many tasks may wait by the time that an alarm goes off. -/
def sleepers (a : Agenda Task) : Nat := a.busy.countP Task.mayWait + a.waiting.length

def turnsDue (a : Agenda Task) : Nat := total Task.turns a.busy

/-- An upper bound for the turns that tasks have before all wait, if there is nothing to read. An
alarm that goes off wakes each of those that wait at most once. -/
def toil (a : Agenda Task) : Nat := 2 * alarmTasks a * sleepers a + turnsDue a

/-- What there is to read for subscriptions, and for watches. What a watch reads counts three times:
it can lead to a call, which has two turns. -/
def unread (d : Desk) : Nat :=
  total (·.lifetime.weight (Stream.unread d.account d.transfers)) d.lives.values +
    total (·.2.panel.lifetime.weight fun v => 3 * v.ahead d.account) d.panels

/-- An upper bound for the turns that tasks have before all wait. A task that has to stop before it
has read all has read something. -/
def effort (d : Desk) : Nat := toil d.agenda + d.unread

/-- Do all background work that there is at the present time. In every round but the first, which
may only refresh the tasks that are tired, some task has its turn. -/
def finish (d : Desk) : Desk := d.rounds (d.effort + 1)

def dueTimes (d : Desk) : List Nat :=
  d.alarms.map (·.1.due) ++ d.lives.values.flatMap fun life =>
    life.lifetime.running.filterMap (·.source.due?)

/-- It is a later time, and those who wait for it are woken. -/
def reach (d : Desk) (time : Nat) : Desk := { d with time }.wake

/-- Wait for a time. All work is done before it, and at every earlier time that something is due. -/
def await (d : Desk) (target : Nat) : Desk :=
  let done := d.finish
  let times := (done.dueTimes.filter fun t => d.time < t && t < target).mergeSort
    fun x y => x ≤ y
  (times.foldl (fun d t => (d.reach t).finish) done).reach target

def advance (ms : Nat) : Act Unit :=
  modify fun d =>
    if ms = 0 then d.settle else (d.settle.await (d.moment.after ms)).settle

end PeerPanel.Desk
