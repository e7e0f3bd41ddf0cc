import Mathlib.Logic.Relation
import PeerPanel.Proofs.Desk.Moves

/-!
Background work is a matter of turns.

While the host lets time pass, tasks have their turns, rounds end, and the time moves on; nothing
else happens at the desk (`Desk.exists_moves_advance`). So what holds of every run of moves holds
however long the host waits.
-/

set_option autoImplicit false
set_option relaxedAutoImplicit false

namespace PeerPanel.Desk

open Relation (ReflTransGen)

def Move.isBackground : Move → Bool
  | .turn | .refresh | .reach _ => true
  | _ => false

/-- What happens next at a desk that is left to itself. -/
def WorksOn (d e : Desk) : Prop := ∃ m : Move, m.isBackground = true ∧ e = d.play m

namespace WorksOn

variable {d e : Desk}

theorem exists_moves (h : ReflTransGen WorksOn d e) :
    ∃ moves : List Move, (∀ m ∈ moves, m.isBackground = true) ∧ e = moves.foldl play d := by
  induction h with
  | refl => exact ⟨[], by simp, rfl⟩
  | tail _ last ih =>
    obtain ⟨moves, background, rfl⟩ := ih
    obtain ⟨m, isBackground, rfl⟩ := last
    refine ⟨moves ++ [m], fun x hx => ?_, by rw [List.foldl_append]; rfl⟩
    rcases List.mem_append.mp hx with early | last
    · exact background x early
    · rwa [List.mem_singleton.mp last]

private theorem refresh (d : Desk) : WorksOn d (d.play .refresh) := ⟨.refresh, rfl, rfl⟩

private theorem reach (d : Desk) (time : Nat) : WorksOn d (d.reach time) := ⟨.reach time, rfl, rfl⟩

private theorem work (n : Nat) (d : Desk) : ReflTransGen WorksOn d (work n d) := by
  induction n generalizing d with
  | zero => exact .refl
  | succ n ih =>
    have turn : WorksOn d (d.play .turn) := ⟨.turn, rfl, rfl⟩
    rw [play] at turn
    rw [Desk.work]
    cases next : d.agenda.next? with
    | none => exact .refl
    | some b =>
      rw [next] at turn
      exact .head turn (ih _)

theorem rounds (n : Nat) (d : Desk) : ReflTransGen WorksOn d (d.rounds n) := by
  induction n generalizing d with
  | zero => exact .refl
  | succ n ih =>
    rw [Desk.rounds]
    split
    · exact .refl
    · have round : ReflTransGen WorksOn d d.round := (work Agenda.roundSize d).tail (refresh _)
      exact round.trans (ih d.round)

private theorem await (d : Desk) (target : Nat) : ReflTransGen WorksOn d (d.await target) := by
  have onward (times : List Nat) (e : Desk) :
      ReflTransGen WorksOn e (times.foldl (fun d t => (d.reach t).finish) e) := by
    induction times generalizing e with
    | nil => exact .refl
    | cons t times ih =>
      have finished : ReflTransGen WorksOn (e.reach t) (e.reach t).finish := rounds _ _
      exact .head (reach e t) (finished.trans (ih _))
  have finished : ReflTransGen WorksOn d d.finish := rounds _ _
  exact (finished.trans (onward _ _)).tail (reach _ target)

end WorksOn

/-- To let time pass is to make a step in which background work is done. -/
theorem exists_moves_advance (ms : Nat) (d : Desk) :
    ∃ moves : List Move, (∀ m ∈ moves, m.isBackground = true) ∧
      after (inStep (advance ms)) d = (Move.pass :: (moves ++ [.stir])).foldl play d := by
  have passed : ReflTransGen WorksOn d.nextStep (after (advance ms) d.nextStep) := by
    rw [advance, after_modify]
    split
    · exact WorksOn.rounds _ _
    · have settled : ReflTransGen WorksOn d.nextStep d.nextStep.settle := WorksOn.rounds _ _
      exact (settled.trans (WorksOn.await _ _)).trans (WorksOn.rounds _ _)
  obtain ⟨moves, background, reached⟩ := WorksOn.exists_moves passed
  refine ⟨moves, background, ?_⟩
  rw [after_inStep, reached, List.foldl_cons, List.foldl_append]
  rfl

end PeerPanel.Desk
