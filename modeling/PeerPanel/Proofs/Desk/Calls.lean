import PeerPanel.Proofs.Desk.Migrations

/-!
The calls to a window are counted.

What a window has been told, together with the calls to it that are on the agenda, is what it has
been asked for (`Desk.asked`). That number grows only when the watch of the panel at its place has
its turn, and by no more than the watch fires then (`Desk.asked_play`). Everything else that is done
moves calls about on the agenda, or loses them.
-/

set_option autoImplicit false
set_option relaxedAutoImplicit false

namespace PeerPanel

namespace Agenda

variable {τ : Type} {a rest : Agenda τ} {t : τ}

theorem tasks_begin (a : Agenda τ) (more : List τ) :
    (a.begin more).tasks.Perm (more ++ a.tasks) := by
  have moved : (a.ready ++ more).Perm (more ++ a.ready) := List.perm_append_comm
  have all := moved.append_right (a.tired ++ a.waiting)
  rwa [List.append_assoc more] at all

theorem tasks_tire (a : Agenda τ) (t : τ) : (a.tire t).tasks.Perm (t :: a.tasks) :=
  List.perm_middle

theorem tasks_await (a : Agenda τ) (t : τ) : (a.await t).tasks.Perm (t :: a.tasks) := by
  have last : (a.await t).tasks = a.tasks ++ [t] := by simp [tasks, await]
  rw [last]
  exact List.perm_append_singleton t a.tasks

private theorem tasks_pause (a : Agenda τ) (isTired : Bool) (t : τ) :
    (if isTired then a.tire t else a.await t).tasks.Perm (t :: a.tasks) := by
  cases isTired with
  | true => exact a.tasks_tire t
  | false => exact a.tasks_await t

theorem tasks_refresh (a : Agenda τ) : a.refresh.tasks = a.tasks := by
  simp [tasks, refresh]

theorem tasks_wake (a : Agenda τ) (hasNews : τ → Bool) (rank : τ → Nat) :
    (a.wake hasNews rank).tasks.Perm a.tasks := by
  have sorted := List.mergeSort_perm (a.waiting.filter hasNews) fun s t => rank s ≤ rank t
  have parts := List.filter_append_perm hasNews a.waiting
  rw [tasks, wake, List.append_assoc]
  refine List.Perm.append_left a.ready ?_
  exact ((sorted.append_right _).trans (List.perm_append_comm_assoc _ _ _)).trans
    (parts.append_left a.tired)

theorem tasks_of_next? (h : a.next? = some (t, rest)) : a.tasks = t :: rest.tasks := by
  unfold next? at h
  split at h
  · next first others ready =>
    cases h
    simp [tasks, ready]
  · cases h

end Agenda

namespace Desk

def Task.goesTo (place : String) : Task → Bool
  | .call c => c.place = place
  | _ => false

/-- How many calls to the window of a place are among some tasks. -/
def callsTo (place : String) (tasks : List Task) : Nat := tasks.countP (Task.goesTo place)

section

variable {place : String} {t : Task} {tasks : List Task}

private theorem callsTo_eq_zero (others : ∀ c, .call c ∉ tasks) : callsTo place tasks = 0 := by
  refine List.countP_eq_zero.mpr fun t ht => ?_
  cases t with
  | call c => exact absurd ht (others c)
  | _ => exact Bool.false_ne_true

private theorem callsTo_begin (a : Agenda Task) (more : List Task) :
    callsTo place (a.begin more).tasks = callsTo place a.tasks + callsTo place more := by
  have all : callsTo place (a.begin more).tasks = _ := (a.tasks_begin more).countP_eq _
  rw [all, List.countP_append, Nat.add_comm]
  rfl

private theorem callsTo_cons_of_not_call (other : ∀ c, t ≠ .call c) (tasks : List Task) :
    callsTo place (t :: tasks) = callsTo place tasks := by
  refine List.countP_cons_of_neg ?_
  cases t with
  | call c => exact absurd rfl (other c)
  | _ => exact Bool.false_ne_true

end

/-- What the window of a place has been asked for: what it was told, and what it is yet to be. -/
def asked (d : Desk) (place : String) : Nat :=
  (d.told place).length + callsTo place d.agenda.tasks

/-- How often the watch of the panel that was opened in a step fires in the next turn. -/
def firings (d : Desk) (opened : Nat) : Nat :=
  match d.agenda.next?, d.watching? opened with
  | some (.watch next, _), some (_, m, v) =>
    if next = opened then (m.panel.watchTurn m.opened ((v.pause? d.account).getD d.account)).1
    else 0
  | _, _ => 0

variable {d : Desk} {place : String}

private theorem callsTo_wakeRanks (d : Desk) (ranks : Nat → Bool) :
    callsTo place (d.wakeRanks ranks).agenda.tasks = callsTo place d.agenda.tasks :=
  (d.agenda.tasks_wake _ _).countP_eq _

private theorem callsTo_enroll (d : Desk) :
    callsTo place d.enroll.agenda.tasks = callsTo place d.agenda.tasks := by
  have begun : callsTo place (d.begunTasks.filter fun t => !d.agenda.ready.contains t) = 0 :=
    callsTo_eq_zero fun c mem => d.call_not_mem_begunTasks c (List.mem_filter.mp mem).1
  rw [enroll, callsTo_begin, begun, Nat.add_zero]

private theorem callsTo_stir (d : Desk) :
    callsTo place d.stir.agenda.tasks = callsTo place d.agenda.tasks := by
  rw [stir, callsTo_wakeRanks, callsTo_enroll, callsTo_wakeRanks]

private theorem callsTo_play_of_host {m : Move} (other : m ≠ .turn) :
    callsTo place (d.play m).agenda.tasks = callsTo place d.agenda.tasks := by
  cases m with
  | change c =>
    rw [play, after_inStep, callsTo_stir]
    rfl
  | store name e =>
    rw [play, after_inStep, callsTo_stir]
    rfl
  | makeWidget name accepts wrap =>
    rw [play, after_inStep, callsTo_stir, makeWidget, after_modify]
    split <;> rfl
  | dropWidget name =>
    rw [play, after_inStep, callsTo_stir, dropWidget, after_get_bind]
    split <;> rfl
  | openPanel there name widget =>
    rw [play, after_inStep, callsTo_stir]
    rcases after_openPanel d.nextStep there name widget with same | ⟨e, m, -, -, -, left⟩
    · rw [same]
      rfl
    · rw [left, agenda_leavePanel, callsTo_enroll]
      rfl
  | switchTo there name =>
    rw [play, after_inStep, callsTo_stir]
    rcases after_rebuildPanel d.nextStep there name Panel.switchTo with
      same | ⟨e, old, result, panel, -, -, -, left | left⟩
    · rw [same]
      rfl
    · rw [left]
      rfl
    · rw [left, (Sheds.part _ _ _).agenda_eq, (Sheds.partField _ _).agenda_eq]
      rfl
  | dropPanel there =>
    rw [play, after_inStep, callsTo_stir]
    rcases after_dropPanel d.nextStep there with same | left
    · rw [same]
      rfl
    · rw [left, agenda_leavePanel]
      rfl
  | turn => exact absurd rfl other
  | pass => rfl
  | refresh => rw [play, Agenda.tasks_refresh]
  | reach time => exact (d.agenda.tasks_wake _ _).countP_eq _
  | stir => exact callsTo_stir d

section

variable {rest : Agenda Task} {t : Task}

private theorem callsTo_pauseTask {d : Desk} {isTired : Bool} (other : ∀ c, t ≠ .call c) :
    callsTo place (d.pauseTask isTired t).agenda.tasks = callsTo place d.agenda.tasks := by
  have all : callsTo place (d.pauseTask isTired t).agenda.tasks = _ :=
    (d.agenda.tasks_pause isTired t).countP_eq _
  rw [all]
  exact callsTo_cons_of_not_call other _

private theorem callsTo_alarm (d : Desk) (setAt : Nat) :
    callsTo place (d.perform (.alarm setAt)).agenda.tasks = callsTo place d.agenda.tasks := by
  rw [perform]
  split
  · split
    · exact (Agenda.tasks_wake _ _ _).countP_eq _
    · exact callsTo_pauseTask (by simp)
  · rfl

private theorem callsTo_follower (d : Desk) (begun : Nat) :
    callsTo place (d.perform (.follower begun)).agenda.tasks = callsTo place d.agenda.tasks := by
  rw [perform]
  split
  · next source _ =>
    obtain ⟨lives, same | ⟨isTired, same⟩⟩ := runFollower_eq d begun source
    · rw [same]
    · rw [same]
      exact callsTo_pauseTask (by simp)
  · rfl

private theorem callsTo_runWatch (d : Desk) (there : String) (m : Mounted) (v : PeerView)
    (place : String) :
    callsTo place (d.runWatch there m v).agenda.tasks =
      callsTo place d.agenda.tasks +
        if there = place then
          (m.panel.watchTurn m.opened ((v.pause? d.account).getD d.account)).1
        else 0 := by
  simp only [runWatch]
  rw [callsTo_pauseTask (by simp), callsTo_begin]
  simp [callsTo, List.countP_replicate, Task.goesTo]

private theorem length_told_tell (d : Desk) (there : String) (call : NavCall) (place : String) :
    (told { d with
      seats := d.seats.insert there { d.seat there with told := (d.seat there).told ++ [call] } }
        place).length = (d.told place).length + if there = place then 1 else 0 := by
  unfold told
  rw [seat_insert]
  by_cases here : place = there
  · simp [here]
  · rw [if_neg here, if_neg (Ne.symm here), Nat.add_zero]

private theorem asked_runCall {c : QueuedCall} (next : d.agenda.next? = some (.call c, rest)) :
    ({ d with agenda := rest }.runCall c).asked place ≤ d.asked place := by
  have before : d.asked place =
      (d.told place).length + callsTo place (.call c :: rest.tasks) := by
    rw [asked, Agenda.tasks_of_next? next]
  rw [before, runCall]
  split
  · have put_off : callsTo place (rest.tire (.call { c with isPutOff := true })).tasks = _ :=
      (rest.tasks_tire _).countP_eq _
    exact Nat.le_of_eq (congrArg ((d.told place).length + ·) put_off)
  · have one_less : callsTo place rest.tasks + (if c.place = place then 1 else 0) =
        callsTo place (.call c :: rest.tasks) := by
      simp [callsTo, Task.goesTo, List.countP_cons]
    rw [← one_less]
    split
    · have told := length_told_tell { d with agenda := rest } c.place c.call place
      refine Nat.le_of_eq ((congrArg (· + callsTo place rest.tasks) told).trans ?_)
      rw [Nat.add_assoc, Nat.add_comm (callsTo _ _)]
      rfl
    · exact Nat.add_le_add_left (Nat.le_add_right _ _) _

end

private theorem play_turn_of_next? {t : Task} {rest : Agenda Task}
    (next : d.agenda.next? = some (t, rest)) :
    d.play .turn = { d with agenda := rest }.perform t := by
  rw [play, next]

theorem play_turn_of_watching? {opened : Nat} {m : Mounted} {v : PeerView} {rest : Agenda Task}
    (next : d.agenda.next? = some (.watch opened, rest))
    (found : d.watching? opened = some (place, m, v)) :
    d.play .turn = { d with agenda := rest }.runWatch place m v ∧
      d.firings opened =
        (m.panel.watchTurn m.opened ((v.pause? d.account).getD d.account)).1 := by
  constructor
  · rw [play_turn_of_next? next, perform,
      show ({ d with agenda := rest } : Desk).watching? opened = some (place, m, v) from found]
  · simp [firings, next, found]

private theorem callsTo_turn {t : Task} {rest : Agenda Task}
    (next : d.agenda.next? = some (t, rest)) (other : ∀ c, t ≠ .call c) (place : String) :
    callsTo place (d.play .turn).agenda.tasks ≤ callsTo place d.agenda.tasks ∨
      ∃ opened m v, d.watching? opened = some (place, m, v) ∧
        callsTo place (d.play .turn).agenda.tasks ≤
          callsTo place d.agenda.tasks + d.firings opened := by
  have taken : callsTo place d.agenda.tasks = callsTo place rest.tasks := by
    rw [Agenda.tasks_of_next? next, callsTo_cons_of_not_call other]
  rw [taken]
  cases t with
  | alarm setAt =>
    rw [play_turn_of_next? next]
    exact .inl (Nat.le_of_eq (callsTo_alarm _ setAt))
  | follower begun =>
    rw [play_turn_of_next? next]
    exact .inl (Nat.le_of_eq (callsTo_follower _ begun))
  | call c => exact absurd rfl (other c)
  | watch opened =>
    cases found : d.watching? opened with
    | none =>
      have unchanged : ({ d with agenda := rest } : Desk).watching? opened = none := found
      have still : { d with agenda := rest }.perform (.watch opened) =
          { d with agenda := rest } := by
        rw [perform, unchanged]
      rw [play_turn_of_next? next, still]
      exact .inl (Nat.le_refl _)
    | some b =>
      obtain ⟨there, m, v⟩ := b
      obtain ⟨runs, fires⟩ := play_turn_of_watching? next found
      have queued := callsTo_runWatch { d with agenda := rest } there m v place
      rw [runs, queued]
      by_cases here : there = place
      · subst here
        rw [if_pos rfl]
        exact .inr ⟨opened, m, v, found, Nat.le_of_eq (by rw [fires])⟩
      · rw [if_neg here]
        exact .inl (Nat.le_refl _)

/-- What a window has been asked for grows only in the turn of the watch of the panel at its place,
and by no more than the watch fires. -/
theorem asked_play (sound : d.Sound) (m : Move) (place : String) :
    (d.play m).asked place ≤ d.asked place ∨
      m = .turn ∧ ∃ w, d.watcher? place = some w ∧
        (d.play m).asked place ≤ d.asked place + d.firings w.opened := by
  by_cases turn : m = .turn
  · subst turn
    cases next : d.agenda.next? with
    | none => exact .inl (by simp only [play, next, Nat.le_refl])
    | some b =>
      obtain ⟨t, rest⟩ := b
      by_cases call : ∃ c, t = .call c
      · obtain ⟨c, rfl⟩ := call
        rw [play_turn_of_next? next]
        exact .inl (asked_runCall next)
      have other : ∀ c, t ≠ .call c := fun c same => call ⟨c, same⟩
      have quiet : (d.play .turn).told place = d.told place := by
        rcases (sound.stepped .turn).told_cases place with same | ⟨c, rest', -, calls, -⟩
        · exact same
        · rw [next] at calls
          cases calls
          exact absurd rfl (other c)
      rw [asked, asked, quiet]
      rcases callsTo_turn next other place with kept | ⟨opened, mounted, v, found, queued⟩
      · exact .inl (Nat.add_le_add_left kept _)
      · obtain ⟨stands, same, -⟩ := watcher?_of_watching? sound.toPlaced found
        refine .inr ⟨rfl, mounted.watcher, stands, ?_⟩
        rw [show mounted.watcher.opened = opened from same, Nat.add_assoc]
        exact Nat.add_le_add_left queued _
  · left
    rcases (sound.stepped m).told_cases place with same | ⟨c, rest, here, -⟩
    · simp only [asked, same, callsTo_play_of_host turn, Nat.le_refl]
    · exact absurd here turn

end Desk

end PeerPanel
