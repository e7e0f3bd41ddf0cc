import PeerPanel.Proofs.Desk.Background
import PeerPanel.Proofs.Desk.Calls
import PeerPanel.Proofs.Desk.Unread

/-!
Background work comes to an end.

Every turn lowers a count of what there is to do (`Desk.effort_perform_lt`): the task is over, or
waits, or has read something. Only an alarm wakes those who wait, and it is gone then. So as many
rounds as the count says leave nothing to do, and any more change nothing:
`Desk.rounds_eq_finish`. So whatever state a desk is in, some turns lead to one in which all is done
(`Desk.exists_moves_idle`).
-/

set_option autoImplicit false
set_option relaxedAutoImplicit false

namespace PeerPanel

namespace Agenda

variable {τ : Type} {a rest : Agenda τ} {t : τ}

private theorem busy_of_next? (next : a.next? = some (t, rest)) :
    a.busy = t :: rest.busy ∧ a.waiting = rest.waiting := by
  unfold next? at next
  split at next
  · next ready =>
    cases next
    simp [busy, ready]
  · cases next

private theorem next?_begin (next : a.next? = some (t, rest)) (tasks : List τ) :
    (a.begin tasks).next? = some (t, rest.begin tasks) := by
  unfold next? at next
  split at next
  · next ready =>
    cases next
    simp [next?, begin, ready]
  · cases next

private theorem busy_tire (a : Agenda τ) (t : τ) :
    (a.tire t).busy.Perm (t :: a.busy) := List.perm_middle

private theorem busy_begin (a : Agenda τ) (tasks : List τ) :
    (a.begin tasks).busy.Perm (tasks ++ a.busy) := by
  have moved : (a.ready ++ tasks).Perm (tasks ++ a.ready) := List.perm_append_comm
  have all := moved.append_right a.tired
  rwa [List.append_assoc tasks] at all

private theorem busy_wake (a : Agenda τ) (hasNews : τ → Bool) (rank : τ → Nat) :
    (a.wake hasNews rank).busy.Perm (a.waiting.filter hasNews ++ a.busy) :=
  (a.busy_begin _).trans ((List.mergeSort_perm _ _).append_right a.busy)

end Agenda

/-- What the panel at a place has subscribed to. -/
def Seat.lifetime? (s : Seat) : Option (Lifetime PeerView) := s.mounted?.map (·.panel.lifetime)

private theorem Seat.lifetime?_mapSearch (s : Seat) (built : Nat)
    (f : Search.Debounce → Search.Debounce) :
    (s.mapSearch built f).lifetime? = s.lifetime? := by
  unfold mapSearch lifetime? mounted?
  cases occupant : s.occupant with
  | panel m =>
    by_cases same : m.built = built
    · simp [same]
    · simp [same, occupant]
  | _ => simp [occupant]

namespace Table

variable {κ ν : Type} [DecidableEq κ]

private theorem get?_add_sum_erase_le (t : Table κ ν) (k : κ) (w : ν → Nat) :
    (t.get? k).elim 0 w + ((t.erase k).values.map w).sum ≤ (t.values.map w).sum := by
  unfold get? erase values
  induction t.bindings with
  | nil => exact Nat.le_refl 0
  | cons b rest ih =>
    rw [List.lookup_cons, List.map_cons, List.map_cons, List.sum_cons]
    by_cases same : k = b.1
    · have fewer : (rest.filter fun b => b.1 ≠ k).Sublist rest := List.filter_sublist
      have le := ((fewer.map (·.2)).map w).sum_le_sum (by simp)
      simp only [same, beq_self_eq_true, Option.elim_some]
      rw [List.filter_cons_of_neg (by simp)]
      rw [same] at le
      exact Nat.add_le_add_left le _
    · rw [beq_eq_false_iff_ne.mpr same, List.filter_cons_of_pos (by simpa using Ne.symm same),
        List.map_cons, List.map_cons, List.sum_cons, Nat.add_left_comm]
      exact Nat.add_le_add_left ih _

private theorem sum_insert_le (t : Table κ ν) {k : κ} {v : ν} {w : ν → Nat}
    (weight : w v ≤ (t.get? k).elim 0 w) :
    ((t.insert k v).values.map w).sum ≤ (t.values.map w).sum := by
  have parts := t.get?_add_sum_erase_le k w
  have inserted : (t.insert k v).values = v :: (t.erase k).values := rfl
  rw [inserted, List.map_cons, List.sum_cons]
  omega

end Table

namespace Desk

section

variable {a b rest : Agenda Task} {t : Task}

private theorem Task.turns_pos (t : Task) : 0 < t.turns := by
  cases t with
  | call c =>
    rw [turns]
    split <;> omega
  | _ => exact Nat.one_pos

private theorem Task.turns_le (t : Task) : t.turns ≤ 2 := by
  cases t with
  | call c =>
    rw [turns]
    split <;> omega
  | _ => exact Nat.le_succ 1

private theorem toil_le {m n : Nat} (alarms : alarmTasks b ≤ alarmTasks a)
    (asleep : sleepers b ≤ sleepers a)
    (turns : turnsDue b + n ≤ turnsDue a + m) : toil b + n ≤ toil a + m := by
  have wakings : 2 * alarmTasks b * sleepers b ≤ 2 * alarmTasks a * sleepers a :=
    Nat.mul_le_mul (Nat.mul_le_mul_left 2 alarms) asleep
  unfold toil
  omega

private theorem counts_of_next? (next : a.next? = some (t, rest)) :
    alarmTasks a = alarmTasks rest + (if t.isAlarm then 1 else 0) ∧
      sleepers a = sleepers rest + (if t.mayWait then 1 else 0) ∧
        turnsDue a = turnsDue rest + t.turns := by
  obtain ⟨busy, waiting⟩ := Agenda.busy_of_next? next
  refine ⟨?_, ?_, ?_⟩
  · rw [alarmTasks, Agenda.tasks_of_next? next, List.countP_cons]
    rfl
  · rw [sleepers, sleepers, busy, waiting, List.countP_cons, Nat.add_right_comm]
  · rw [turnsDue, turnsDue, busy, total, Nat.add_comm]

private theorem counts_tire (a : Agenda Task) (t : Task) :
    alarmTasks (a.tire t) = alarmTasks a + (if t.isAlarm then 1 else 0) ∧
      sleepers (a.tire t) = sleepers a + (if t.mayWait then 1 else 0) ∧
        turnsDue (a.tire t) = turnsDue a + t.turns := by
  have busy := a.busy_tire t
  refine ⟨?_, ?_, ?_⟩
  · exact ((a.tasks_tire t).countP_eq _).trans List.countP_cons
  · rw [sleepers, sleepers, busy.countP_eq, List.countP_cons, Nat.add_right_comm]
    rfl
  · rw [turnsDue, turnsDue, total_eq_sum, total_eq_sum, (busy.map Task.turns).sum_eq, List.map_cons,
      List.sum_cons, Nat.add_comm]

private theorem counts_await (a : Agenda Task) (t : Task) :
    alarmTasks (a.await t) = alarmTasks a + (if t.isAlarm then 1 else 0) ∧
      sleepers (a.await t) = sleepers a + 1 ∧ turnsDue (a.await t) = turnsDue a := by
  refine ⟨((a.tasks_await t).countP_eq _).trans List.countP_cons, ?_, rfl⟩
  simp [sleepers, Agenda.await, Agenda.busy, Nat.add_assoc]

private theorem toil_lt_of_next? (next : a.next? = some (t, rest)) : toil rest + 1 ≤ toil a := by
  have pos := t.turns_pos
  obtain ⟨alarms, asleep, turns⟩ := counts_of_next? next
  exact toil_le (m := 0) (by omega) (by omega) (by omega)

private theorem toil_pause (next : a.next? = some (t, rest)) (waits : t.mayWait = true)
    (isTired : Bool) :
    toil (if isTired then rest.tire t else rest.await t) + (!isTired).toNat ≤ toil a := by
  have pos := t.turns_pos
  obtain ⟨alarms, asleep, turns⟩ := counts_of_next? next
  rw [if_pos waits] at asleep
  cases isTired with
  | true =>
    obtain ⟨alarms', asleep', turns'⟩ := counts_tire rest t
    rw [if_pos waits] at asleep'
    exact toil_le (m := 0) (alarms'.trans alarms.symm).le (asleep'.trans asleep.symm).le
      (turns'.trans turns.symm).le
  | false =>
    obtain ⟨alarms', asleep', turns'⟩ := counts_await rest t
    refine toil_le (m := 0) (alarms'.trans alarms.symm).le (asleep'.trans asleep.symm).le ?_
    rw [if_neg Bool.false_ne_true, turns', turns]
    exact Nat.add_le_add_left pos _

private theorem toil_put_off {c : QueuedCall} (next : a.next? = some (.call c, rest))
    (first : c.isPutOff = false) :
    toil (rest.tire (.call { c with isPutOff := true })) + 1 ≤ toil a := by
  obtain ⟨alarms, asleep, turns⟩ := counts_of_next? next
  obtain ⟨alarms', asleep', turns'⟩ := counts_tire rest (.call { c with isPutOff := true })
  refine toil_le (m := 0) (alarms'.trans alarms.symm).le (asleep'.trans asleep.symm).le ?_
  rw [turns', turns]
  simp [Task.turns, first]

private theorem toil_begin_calls (a : Agenda Task) (n : Nat) {c : QueuedCall}
    (first : c.isPutOff = false) :
    toil (a.begin (List.replicate n (.call c))) ≤ toil a + 2 * n := by
  have busy := a.busy_begin (List.replicate n (.call c))
  refine toil_le (n := 0) ?_ ?_ ?_
  · rw [alarmTasks, (a.tasks_begin _).countP_eq, List.countP_append, List.countP_replicate]
    simp [Task.isAlarm, alarmTasks]
  · rw [sleepers, busy.countP_eq, List.countP_append, List.countP_replicate]
    simp [Task.mayWait, sleepers, Agenda.begin]
  · rw [turnsDue, turnsDue, total_eq_sum, total_eq_sum, (busy.map Task.turns).sum_eq]
    simp [Task.turns, first]
    omega

private theorem toil_pause_begin_calls (next : a.next? = some (t, rest)) (waits : t.mayWait = true)
    (isTired : Bool) (n : Nat) {c : QueuedCall} (first : c.isPutOff = false) :
    toil (if isTired then (rest.begin (List.replicate n (.call c))).tire t
        else (rest.begin (List.replicate n (.call c))).await t) + (!isTired).toNat ≤
      toil a + 2 * n :=
  (toil_pause (Agenda.next?_begin next _) waits isTired).trans (toil_begin_calls a n first)

private theorem counts_wake (a : Agenda Task) (hasNews : Task → Bool) (rank : Task → Nat) :
    alarmTasks (a.wake hasNews rank) = alarmTasks a ∧
      sleepers (a.wake hasNews rank) ≤ sleepers a ∧
        turnsDue (a.wake hasNews rank) ≤ turnsDue a + 2 * sleepers a := by
  have busy := a.busy_wake hasNews rank
  have waiting : (a.waiting.filter hasNews).length +
      (a.waiting.filter fun t => !hasNews t).length = a.waiting.length := by
    simpa using (List.filter_append_perm hasNews a.waiting).length_eq
  refine ⟨(a.tasks_wake hasNews rank).countP_eq _, ?_, ?_⟩
  · have woken : (a.waiting.filter hasNews).countP Task.mayWait ≤
        (a.waiting.filter hasNews).length := List.countP_le_length
    rw [sleepers, busy.countP_eq, List.countP_append, sleepers]
    simp only [Agenda.wake]
    omega
  · have woken : ((a.waiting.filter hasNews).map Task.turns).sum ≤
        (a.waiting.filter hasNews).length * 2 := by
      have most : ∀ n ∈ (a.waiting.filter hasNews).map Task.turns, n ≤ 2 := by
        intro n mem
        obtain ⟨t, -, rfl⟩ := List.mem_map.mp mem
        exact t.turns_le
      simpa using List.sum_le_card_nsmul _ 2 most
    rw [turnsDue, turnsDue, total_eq_sum, total_eq_sum, (busy.map Task.turns).sum_eq,
      List.map_append, List.sum_append, sleepers]
    omega

private theorem toil_ring (next : a.next? = some (t, rest)) (alarm : t.isAlarm = true)
    (hasNews : Task → Bool) (rank : Task → Nat) : toil (rest.wake hasNews rank) + 1 ≤ toil a := by
  have pos := t.turns_pos
  obtain ⟨alarms, asleep, turns⟩ := counts_of_next? next
  obtain ⟨alarms', asleep', turns'⟩ := counts_wake rest hasNews rank
  rw [if_pos alarm] at alarms
  have wakings : 2 * alarmTasks rest * sleepers (rest.wake hasNews rank) ≤
      2 * alarmTasks rest * sleepers rest := Nat.mul_le_mul_left _ asleep'
  -- one alarm less is worth two turns of everybody who may be woken
  have before : 2 * alarmTasks rest * sleepers rest + 2 * sleepers rest ≤
      2 * alarmTasks a * sleepers a := by
    rw [alarms, Nat.mul_succ, ← Nat.add_mul]
    exact Nat.mul_le_mul_left _ (asleep ▸ Nat.le_add_right _ _)
  unfold toil
  rw [alarms']
  omega

private theorem toil_refresh (a : Agenda Task) : toil a.refresh = toil a := by
  have busy : a.refresh.busy = a.busy := by simp [Agenda.refresh, Agenda.busy]
  have waiting : a.refresh.waiting = a.waiting := rfl
  rw [toil, alarmTasks, sleepers, turnsDue, a.tasks_refresh, busy, waiting]
  rfl

end

section

variable {d : Desk}

private theorem unread_eq_sum (d : Desk) : d.unread =
    (d.lives.values.map fun life =>
      life.lifetime.weight (Stream.unread d.account d.transfers)).sum +
    (d.panels.map fun b =>
      b.2.panel.lifetime.weight fun v => 3 * v.ahead d.account).sum := by
  rw [unread, total_eq_sum, total_eq_sum]

private theorem sum_panels (d : Desk) (w : Lifetime PeerView → Nat) :
    (d.panels.map fun b => w b.2.panel.lifetime).sum =
      (d.seats.values.map (·.lifetime?.elim 0 w)).sum +
        (d.gone.map fun b => w b.2.panel.lifetime).sum := by
  rw [panels, List.map_append, List.sum_append]
  congr 1
  rw [Table.values]
  induction d.seats.bindings with
  | nil => rfl
  | cons b rest ih =>
    rw [List.filterMap_cons, List.map_cons, List.map_cons, List.sum_cons, ← ih, Seat.lifetime?]
    cases b.2.mounted? with
    | none => exact (Nat.zero_add _).symm
    | some m => rfl

private theorem unread_mapSearch (d : Desk) (made : Nat) (f : Search.Debounce → Search.Debounce) :
    (d.mapSearch made f).unread = d.unread := by
  have panels (w : Lifetime PeerView → Nat) :
      ((d.mapSearch made f).panels.map fun b => w b.2.panel.lifetime).sum =
        (d.panels.map fun b => w b.2.panel.lifetime).sum := by
    rw [sum_panels, sum_panels]
    simp [mapSearch, Table.values, Table.mapValues, Function.comp_def, Seat.lifetime?_mapSearch]
  rw [unread_eq_sum, unread_eq_sum, panels]
  rfl

private theorem unread_runCall_le (d : Desk) (c : QueuedCall) :
    (d.runCall c).unread ≤ d.unread := by
  rw [runCall]
  split
  · exact Nat.le_refl _
  · split
    · rw [unread_eq_sum, unread_eq_sum, sum_panels, sum_panels]
      refine Nat.add_le_add_left ?_ _
      refine Nat.add_le_add_right (Table.sum_insert_le _ ?_) _
      rw [seat]
      cases d.seats.get? c.place <;> exact Nat.le_refl _
    · exact Nat.le_refl _

private theorem unread_turn (d : Desk) (p : Publishers) (begun : Nat) :
    unread { d with lives := d.lives.mapValues (·.turn p begun) } ≤ d.unread ∧
      ∀ source, d.followed? begun = some source → source.pause? d.publishers = some p →
        unread { d with lives := d.lives.mapValues (·.turn p begun) } < d.unread := by
  have turn (life : Life) : (life.turn p begun).lifetime =
      (life.lifetime.run begun (Stream.ask p) (Stream.readyBound p)).2 := rfl
  have values : (d.lives.mapValues (·.turn p begun)).values =
      d.lives.values.map (·.turn p begun) := by
    simp [Table.values, Table.mapValues]
  have pays := Stream.weight_ask_le p d.publishers
  have le (life : Life) : (life.turn p begun).lifetime.weight
      (Stream.unread d.account d.transfers) ≤
        life.lifetime.weight (Stream.unread d.account d.transfers) := by
    have run := life.lifetime.weight_run_le pays begun (Stream.readyBound p)
    rw [Nat.zero_mul, Nat.zero_add] at run
    exact run
  rw [unread_eq_sum, unread_eq_sum, values, List.map_map]
  constructor
  · exact Nat.add_le_add_right (List.sum_le_sum fun life _ => le life) _
  · intro source found pauses
    obtain ⟨life, mem, runs⟩ := List.exists_of_findSome?_eq_some found
    refine Nat.add_lt_add_right (List.sum_lt_sum _ _ (fun life _ => le life) ⟨life, mem, ?_⟩) _
    have some : 0 < Stream.readyBound p := Nat.succ_pos _
    have run := Lifetime.weight_run_lt pays some runs (Stream.weight_ask_lt pauses)
    rw [Nat.zero_mul, Nat.zero_add] at run
    exact run

private theorem effort_pauseTask {e : Desk} {t : Task} {isTired : Bool} {n : Nat}
    (tasks : toil (e.pauseTask isTired t).agenda + (!isTired).toNat ≤ toil d.agenda + n)
    (le : e.unread + n ≤ d.unread) (lt : isTired = true → e.unread + n < d.unread) :
    (e.pauseTask isTired t).effort < d.effort := by
  have same : (e.pauseTask isTired t).unread = e.unread := rfl
  rw [effort, same, effort]
  cases isTired with
  | true =>
    have less := lt rfl
    omega
  | false =>
    have one : (!false).toNat = 1 := rfl
    omega

private theorem effort_runFollower {rest : Agenda Task} {begun : Nat} {source : Stream}
    (next : d.agenda.next? = some (.follower begun, rest))
    (found : d.followed? begun = some source) :
    ({ d with agenda := rest }.runFollower begun source).effort < d.effort := by
  obtain ⟨le, lt⟩ := unread_turn d ((source.pause? d.publishers).getD d.publishers) begun
  simp only [runFollower]
  split
  · exact Nat.add_lt_add_of_lt_of_le (toil_lt_of_next? next) le
  · refine effort_pauseTask (n := 0) (toil_pause next rfl _) le fun tired => ?_
    obtain ⟨p, pauses⟩ := Option.isSome_iff_exists.mp tired
    refine lt source found (pauses.trans (congrArg some ?_))
    exact (congrArg (·.getD d.publishers) pauses).symm

private theorem panels_mapOpened (d : Desk) (opened : Nat) (f : Panel → Panel) :
    (d.mapOpened opened f).panels = d.panels.map fun b => (b.1, b.2.mapOpened opened f) := by
  simp only [panels, mapOpened, Table.mapValues, List.map_append, List.filterMap_map,
    List.map_filterMap]
  congr 2
  funext b
  simp [Seat.mounted?_mapOpened, Function.comp_def]

private theorem sum_map_add_le {ι : Type} {l : List ι} {f g : ι → Nat} (le : ∀ i, f i ≤ g i) {i : ι}
    (mem : i ∈ l) {n : Nat} (here : f i + n ≤ g i) : (l.map f).sum + n ≤ (l.map g).sum := by
  obtain ⟨front, back, rfl⟩ := List.append_of_mem mem
  have before : (front.map f).sum ≤ (front.map g).sum := List.sum_le_sum fun i _ => le i
  have after : (back.map f).sum ≤ (back.map g).sum := List.sum_le_sum fun i _ => le i
  simp only [List.map_append, List.map_cons, List.sum_append, List.sum_cons]
  omega

private theorem weight_watchTurn (p : Panel) (begun : Nat) {a b : Account}
    (within : b.peerNotices.place ≤ a.peerNotices.place) :
    (p.watchTurn begun b).2.lifetime.weight (fun v => 3 * v.ahead a) +
        2 * (p.watchTurn begun b).1 ≤ p.lifetime.weight (fun v => 3 * v.ahead a) ∧
      ∀ v, p.lifetime.source? begun = some v → v.pause? a = some b →
        (p.watchTurn begun b).2.lifetime.weight (fun v => 3 * v.ahead a) +
          2 * (p.watchTurn begun b).1 < p.lifetime.weight (fun v => 3 * v.ahead a) := by
  have pays (v : PeerView) := (PeerView.weight_ask (v := v) within).1
  unfold Panel.watchTurn
  cases runs : p.lifetime.source? begun with
  | none => exact ⟨Nat.le_refl _, by simp⟩
  | some v =>
    have le := p.lifetime.weight_run_le pays begun (v.readyBound b)
    have lt := Lifetime.weight_run_lt pays (Nat.succ_pos (b.peerNotices.place - v.place + 1)) runs
    -- it fires for no more than it has read, and for nothing if the peer is not linked
    have fires (linked : Bool) (n : Nat) : (if linked then n else 0) ≤ n := by
      cases linked <;> simp
    have paid {linked : Bool} {n weight : Nat} :
        weight + 2 * (if linked then n else 0) ≤ 2 * n + weight := by
      have few := fires linked n
      omega
    refine ⟨paid.trans le, ?_⟩
    rintro v ⟨⟩ pauses
    exact paid.trans_lt (lt ((PeerView.weight_ask within).2 pauses))

private theorem unread_watchTurn {opened : Nat} {place : String} {m : Mounted} {v : PeerView}
    (found : d.watching? opened = some (place, m, v)) {b : Account}
    (within : b.peerNotices.place ≤ d.account.peerNotices.place) :
    unread (d.mapOpened m.opened fun p => (p.watchTurn m.opened b).2) +
        2 * (m.panel.watchTurn m.opened b).1 ≤ d.unread ∧
      (v.pause? d.account = some b →
        unread (d.mapOpened m.opened fun p => (p.watchTurn m.opened b).2) +
          2 * (m.panel.watchTurn m.opened b).1 < d.unread) := by
  obtain ⟨mem, -, watch⟩ := mem_panels_of_watching? found
  obtain ⟨paid, less⟩ := weight_watchTurn m.panel m.opened within
  have le (c : String × Mounted) : (c.2.mapOpened m.opened fun p =>
      (p.watchTurn m.opened b).2).panel.lifetime.weight (fun v => 3 * v.ahead d.account) ≤
        c.2.panel.lifetime.weight fun v => 3 * v.ahead d.account := by
    unfold Mounted.mapOpened
    split
    · exact (Nat.le_add_right _ _).trans (weight_watchTurn c.2.panel m.opened within).1
    · exact Nat.le_refl _
  have here : m.mapOpened m.opened (fun p => (p.watchTurn m.opened b).2) =
      { m with panel := (m.panel.watchTurn m.opened b).2 } := if_pos rfl
  have total {n : Nat} (spent : (m.panel.watchTurn m.opened b).2.lifetime.weight
      (fun v => 3 * v.ahead d.account) + n ≤
        m.panel.lifetime.weight fun v => 3 * v.ahead d.account) :
      unread (d.mapOpened m.opened fun p => (p.watchTurn m.opened b).2) + n ≤ d.unread := by
    rw [unread_eq_sum, unread_eq_sum, panels_mapOpened, List.map_map, Nat.add_assoc]
    refine Nat.add_le_add_left (sum_map_add_le le mem ?_) _
    rw [here]
    exact spent
  exact ⟨total paid, fun pauses =>
    total (n := 2 * (m.panel.watchTurn m.opened b).1 + 1) (less v watch pauses)⟩

private theorem effort_runWatch {rest : Agenda Task} {opened : Nat} {place : String} {m : Mounted}
    {v : PeerView} (next : d.agenda.next? = some (.watch opened, rest))
    (found : d.watching? opened = some (place, m, v)) :
    ({ d with agenda := rest }.runWatch place m v).effort < d.effort := by
  obtain ⟨-, rfl, -⟩ := mem_panels_of_watching? found
  have within : ((v.pause? d.account).getD d.account).peerNotices.place ≤
      d.account.peerNotices.place := by
    cases pauses : v.pause? d.account with
    | none => exact Nat.le_refl _
    | some b => exact (PeerView.pause?_eq_some pauses).2.1
  obtain ⟨le, lt⟩ := unread_watchTurn found within
  have first : ({ place, widget := m.widget, call := m.panel.reopening v.peer } :
      QueuedCall).isPutOff = false := rfl
  have queued := toil_pause_begin_calls next rfl (v.pause? d.account).isSome
    (m.panel.watchTurn m.opened ((v.pause? d.account).getD d.account)).1 first
  simp only [runWatch]
  refine effort_pauseTask queued le fun tired => lt ?_
  obtain ⟨b, pauses⟩ := Option.isSome_iff_exists.mp tired
  exact pauses.trans (congrArg some (congrArg (·.getD d.account) pauses).symm)

private theorem effort_runCall {rest : Agenda Task} {c : QueuedCall}
    (next : d.agenda.next? = some (.call c, rest)) :
    ({ d with agenda := rest }.runCall c).effort < d.effort := by
  cases first : c.isPutOff with
  | false =>
    rw [runCall, first]
    exact Nat.add_lt_add_of_lt_of_le (toil_put_off next first) (Nat.le_refl _)
  | true =>
    have left := unread_runCall_le { d with agenda := rest } c
    have gone : ({ d with agenda := rest }.runCall c).agenda = rest := by
      rw [runCall, first]
      simp only [Bool.not_true, Bool.false_eq_true, if_false]
      split <;> rfl
    rw [effort, gone]
    exact Nat.add_lt_add_of_lt_of_le (toil_lt_of_next? next) left

/-- Every turn lowers the effort. -/
theorem effort_perform_lt {rest : Agenda Task} {t : Task} (next : d.agenda.next? = some (t, rest)) :
    ({ d with agenda := rest }.perform t).effort < d.effort := by
  have ended : effort { d with agenda := rest } < d.effort :=
    Nat.add_lt_add_right (toil_lt_of_next? next) _
  cases t with
  | alarm setAt =>
    rw [perform]
    split
    · split
      · next alarm made _ _ =>
        have same := unread_mapSearch { d with agenda := rest } made (·.reach d.account d.time)
        refine Nat.add_lt_add_of_lt_of_le (toil_ring next rfl _ _) ?_
        exact same.le
      · exact effort_pauseTask (n := 0) (toil_pause next rfl false) (Nat.le_refl _)
          (by simp)
    · exact ended
  | follower begun =>
    rw [perform]
    split
    · next source found => exact effort_runFollower next found
    · exact ended
  | watch opened =>
    rw [perform]
    split
    · next place m v found => exact effort_runWatch next found
    · exact ended
  | call c => exact effort_runCall next

private theorem tired_round (d : Desk) : d.round.agenda.tired = [] := rfl

private theorem effort_work_le (n : Nat) (d : Desk) : (work n d).effort ≤ d.effort := by
  induction n generalizing d with
  | zero => exact Nat.le_refl _
  | succ n ih =>
    rw [work]
    split
    · next t rest next => exact (ih _).trans (Nat.le_of_lt (effort_perform_lt next))
    · exact Nat.le_refl _

private theorem effort_round (d : Desk) : d.round.effort = (work Agenda.roundSize d).effort :=
  congrArg (· + _) (toil_refresh _)

private theorem effort_round_lt {t : Task} {rest : Agenda Task}
    (next : d.agenda.next? = some (t, rest)) :
    d.round.effort < d.effort := by
  rw [effort_round, Agenda.roundSize, work, next]
  exact (effort_work_le _ _).trans_lt (effort_perform_lt next)

private theorem exists_next?_of_busy (fresh : d.agenda.tired = [])
    (busy : ¬ d.agenda.isIdle = true) :
    ∃ t rest, d.agenda.next? = some (t, rest) := by
  cases ready : d.agenda.ready with
  | nil => exact absurd (by simp [Agenda.isIdle, ready, fresh]) busy
  | cons t rest => exact ⟨t, { d.agenda with ready := rest }, by simp [Agenda.next?, ready]⟩

private theorem isIdle_rounds_of_fresh {n : Nat} (fresh : d.agenda.tired = [])
    (enough : d.effort ≤ n) :
    (d.rounds n).agenda.isIdle = true := by
  -- with no tired tasks every round has a turn in it, and there are none after a round
  induction n generalizing d with
  | zero =>
    by_contra busy
    obtain ⟨t, rest, next⟩ := exists_next?_of_busy fresh busy
    exact Nat.not_lt_zero _ ((effort_perform_lt next).trans_le enough)
  | succ n ih =>
    rw [rounds]
    split
    · assumption
    · next busy =>
      obtain ⟨t, rest, next⟩ := exists_next?_of_busy fresh busy
      exact ih d.tired_round (Nat.le_of_lt_succ ((effort_round_lt next).trans_le enough))

/-- When the host waits for its work to be done, it is done. -/
theorem isIdle_finish (d : Desk) : d.finish.agenda.isIdle = true := by
  rw [finish, rounds]
  split
  · assumption
  · exact isIdle_rounds_of_fresh d.tired_round (d.effort_round.trans_le (effort_work_le _ d))

private theorem rounds_of_isIdle (idle : d.agenda.isIdle = true) (n : Nat) : d.rounds n = d := by
  cases n with
  | zero => rfl
  | succ n => rw [rounds, if_pos idle]

private theorem rounds_add (d : Desk) (m n : Nat) : d.rounds (m + n) = (d.rounds m).rounds n := by
  induction m generalizing d with
  | zero => rw [Nat.zero_add, rounds]
  | succ m ih =>
    rw [Nat.succ_add, rounds, rounds]
    split
    · next idle => exact (rounds_of_isIdle idle n).symm
    · exact ih d.round

/-- However many more rounds go by, nothing more happens. -/
theorem rounds_eq_finish {n : Nat} (enough : d.effort < n) : d.rounds n = d.finish := by
  obtain ⟨more, rfl⟩ := Nat.exists_eq_add_of_le enough
  rw [rounds_add]
  exact rounds_of_isIdle d.isIdle_finish more

/-- A desk that is left to itself comes to have nothing to do. -/
theorem exists_moves_idle (d : Desk) :
    ∃ moves : List Move, (∀ m ∈ moves, m.isBackground = true) ∧
      (moves.foldl play d).agenda.isIdle = true := by
  obtain ⟨moves, background, reached⟩ := WorksOn.exists_moves (WorksOn.rounds (d.effort + 1) d)
  exact ⟨moves, background, reached ▸ d.isIdle_finish⟩

end

end Desk

end PeerPanel
