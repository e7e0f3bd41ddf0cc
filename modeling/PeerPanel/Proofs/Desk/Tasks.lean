import Mathlib.Tactic.Tauto
import PeerPanel.Proofs.Desk.Places

/-!
The tasks on the agenda of a desk.

What the host does puts tasks on the agenda and takes none off it (`Desk.Grows`), and leaves only
those waiting for which there are no news (`Desk.hasNews_of_waiting_stir`). Calls are not begun by
the host, and never wait.
-/

set_option autoImplicit false
set_option relaxedAutoImplicit false

namespace PeerPanel

namespace Agenda

variable {τ : Type} {a rest : Agenda τ} {s t : τ} {tasks : List τ}

def Holds (a : Agenda τ) (t : τ) : Prop := t ∈ a.ready ∨ t ∈ a.tired ∨ t ∈ a.waiting

theorem holds_begin : (a.begin tasks).Holds t ↔ a.Holds t ∨ t ∈ tasks := by
  simp only [Holds, begin, List.mem_append]
  tauto

private theorem holds_await : (a.await s).Holds t ↔ a.Holds t ∨ t = s := by
  simp only [Holds, await, List.mem_append, List.mem_singleton]
  tauto

theorem holds_tire : (a.tire s).Holds t ↔ a.Holds t ∨ t = s := by
  simp only [Holds, tire, List.mem_cons]
  tauto

theorem holds_pause {isTired : Bool} :
    (if isTired then a.tire s else a.await s).Holds t ↔ a.Holds t ∨ t = s := by
  cases isTired with
  | true => exact holds_tire
  | false => exact holds_await

theorem mem_waiting_pause {isTired : Bool}
    (waits : t ∈ (if isTired then a.tire s else a.await s).waiting) :
    t ∈ a.waiting ∨ isTired = false ∧ t = s := by
  cases isTired with
  | true => exact .inl waits
  | false =>
    exact (List.mem_append.mp waits).imp_right fun same => ⟨rfl, List.mem_singleton.mp same⟩

private theorem holds_refresh : a.refresh.Holds t ↔ a.Holds t := by
  simp only [Holds, refresh, List.mem_append, List.not_mem_nil]
  tauto

private theorem holds_wake (hasNews : τ → Bool) (rank : τ → Nat) :
    (a.wake hasNews rank).Holds t ↔ a.Holds t := by
  simp only [Holds, wake, List.mem_append, List.mem_mergeSort, List.mem_filter,
    Bool.not_eq_true']
  cases hasNews t with
  | true =>
    simp
    tauto
  | false => simp

theorem holds_of_next? (h : a.next? = some (s, rest)) : a.Holds t ↔ t = s ∨ rest.Holds t := by
  unfold next? at h
  split at h
  · next front behind ready =>
    cases h
    simp only [Holds, ready, List.mem_cons]
    tauto
  · cases h

theorem waiting_of_next? (h : a.next? = some (s, rest)) : rest.waiting = a.waiting := by
  unfold next? at h
  split at h
  · cases h
    rfl
  · cases h

theorem mem_waiting_of_isIdle (idle : a.isIdle = true) (held : a.Holds t) : t ∈ a.waiting := by
  simp only [isIdle, Bool.and_eq_true, List.isEmpty_iff] at idle
  simpa [Holds, idle.1, idle.2] using held

end Agenda

namespace Desk

/-- An agenda from which no task was taken, and which no call was added to. -/
structure Grows (a b : Agenda Task) : Prop where
  held : ∀ t, a.Holds t → b.Holds t
  calls : ∀ c, b.Holds (.call c) → a.Holds (.call c)
  uncalled : ∀ c, .call c ∈ b.waiting → .call c ∈ a.waiting

namespace Grows

variable {a b c : Agenda Task}

theorem refl (a : Agenda Task) : Grows a a :=
  ⟨fun _ => id, fun _ => id, fun _ => id⟩

private theorem trans (h : Grows a b) (h' : Grows b c) : Grows a c :=
  ⟨fun t held => h'.held t (h.held t held), fun t held => h.calls t (h'.calls t held),
    fun t waits => h.uncalled t (h'.uncalled t waits)⟩

theorem wake (a : Agenda Task) (hasNews : Task → Bool) (rank : Task → Nat) :
    Grows a (a.wake hasNews rank) where
  held _ held := (Agenda.holds_wake hasNews rank).mpr held
  calls _ held := (Agenda.holds_wake hasNews rank).mp held
  uncalled _ waits := (List.mem_filter.mp waits).1

theorem refresh (a : Agenda Task) : Grows a a.refresh :=
  ⟨fun _ => Agenda.holds_refresh.mpr, fun _ => Agenda.holds_refresh.mp, fun _ => id⟩

private theorem begin {tasks : List Task} (others : ∀ c, .call c ∉ tasks) (a : Agenda Task) :
    Grows a (a.begin tasks) where
  held _ held := Agenda.holds_begin.mpr (.inl held)
  calls c held := (Agenda.holds_begin.mp held).resolve_right (others c)
  uncalled _ := id

theorem pause {t : Task} (other : ∀ c, t ≠ .call c) (a : Agenda Task) (isTired : Bool) :
    Grows a (if isTired then a.tire t else a.await t) where
  held _ held := Agenda.holds_pause.mpr (.inl held)
  calls c held := (Agenda.holds_pause.mp held).resolve_right (other c).symm
  uncalled c waits :=
    (Agenda.mem_waiting_pause waits).resolve_right fun same => other c same.2.symm

end Grows

variable (d : Desk)

theorem call_not_mem_begunTasks (c : QueuedCall) : .call c ∉ d.begunTasks := by
  simp only [begunTasks, List.mem_append, not_or]
  refine ⟨⟨?_, ?_⟩, ?_⟩ <;> split <;> simp

theorem grows_enroll : Grows d.agenda d.enroll.agenda :=
  .begin (fun c begun => d.call_not_mem_begunTasks c (List.mem_filter.mp begun).1) d.agenda

private theorem watch_of_enroll (runs : (d.watching? d.step).isSome = true) :
    d.enroll.agenda.Holds (.watch d.step) := by
  have begun : Task.watch d.step ∈ d.begunTasks := by
    simp [begunTasks, runs]
  by_cases there : d.agenda.ready.contains (.watch d.step) = true
  · exact d.grows_enroll.held _ (.inl (by simpa using there))
  · refine Agenda.holds_begin.mpr (.inr (List.mem_filter.mpr ⟨begun, ?_⟩))
    simpa using there

theorem watch_of_stir (runs : (d.watching? d.step).isSome = true) :
    d.stir.agenda.Holds (.watch d.step) :=
  (Grows.wake _ _ _).held _ ((d.wakeRanks (· < Stream.lastRank)).watch_of_enroll runs)

theorem grows_stir : Grows d.agenda d.stir.agenda :=
  ((Grows.wake d.agenda _ _).trans (d.wakeRanks (· < Stream.lastRank)).grows_enroll).trans
    (.wake _ _ _)

theorem alike_stir : d.Alike d.stir := .agenda d d.stir.agenda

theorem mem_waiting_of_stir {t : Task} (waits : t ∈ d.stir.agenda.waiting) :
    t ∈ d.agenda.waiting :=
  (List.mem_filter.mp (List.mem_filter.mp waits).1).1

/-- After a step of the host only those wait for which there are no news. -/
theorem hasNews_of_waiting_stir {t : Task} (waits : t ∈ d.stir.agenda.waiting) :
    d.hasNews d.publishers t = false := by
  have quiet : (!(true && d.hasNews d.publishers t)) = true := (List.mem_filter.mp waits).2
  simpa using quiet

end Desk

end PeerPanel
