/-!
An agenda is the order in which background tasks are done, one at a time.

A task is ready, or it waits for news, or it is tired: it has done all that it may do at one go, and
has more to do. Tasks that are ready are done in the order in which they became so, in rounds. A
round is over after a number of tasks, or when none is ready; then the tired ones are ready again,
and the one that was tired last goes first.
-/

set_option autoImplicit false
set_option relaxedAutoImplicit false

namespace PeerPanel

/-- The tasks by what they are up to. Those that wait stand in the order in which they came to wait,
and the tired ones with the latest first. -/
structure Agenda (τ : Type) where
  ready : List τ := []
  tired : List τ := []
  waiting : List τ := []
  deriving DecidableEq

namespace Agenda

variable {τ : Type}

def roundSize : Nat := 61

/-- The tasks that do not wait. -/
def busy (a : Agenda τ) : List τ := a.ready ++ a.tired

/-- The tasks, whatever they are up to. -/
def tasks (a : Agenda τ) : List τ := a.ready ++ (a.tired ++ a.waiting)

def begin (a : Agenda τ) (tasks : List τ) : Agenda τ := { a with ready := a.ready ++ tasks }

/-- A task has done what there was to do, and waits. -/
def await (a : Agenda τ) (t : τ) : Agenda τ := { a with waiting := a.waiting ++ [t] }

/-- A task has more to do, and is tired. -/
def tire (a : Agenda τ) (t : τ) : Agenda τ := { a with tired := t :: a.tired }

/-- The tasks for which there are news become ready: by their ranks, and those of one rank in the
order in which they came to wait. -/
def wake (a : Agenda τ) (hasNews : τ → Bool) (rank : τ → Nat) : Agenda τ :=
  { a with
    ready := a.ready ++ (a.waiting.filter hasNews).mergeSort fun s t => rank s ≤ rank t
    waiting := a.waiting.filter fun t => !hasNews t }

def refresh (a : Agenda τ) : Agenda τ := { a with ready := a.ready ++ a.tired, tired := [] }

/-- The task that is done next, and the agenda without it. -/
def next? (a : Agenda τ) : Option (τ × Agenda τ) :=
  match a.ready with
  | t :: rest => some (t, { a with ready := rest })
  | [] => none

def isIdle (a : Agenda τ) : Bool := a.ready.isEmpty && a.tired.isEmpty

/-- The work is done when there is nothing to do even for those who are refreshed. -/
theorem isIdle_iff_next?_refresh (a : Agenda τ) : a.isIdle ↔ a.refresh.next? = none := by
  rcases a with ⟨ready, tired, waiting⟩
  cases ready <;> cases tired <;> simp [isIdle, refresh, next?]

end Agenda

end PeerPanel
