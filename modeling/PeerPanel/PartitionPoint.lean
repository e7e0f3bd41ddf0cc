/-!
The place at which a list parts: what stands before it satisfies a condition, and what stands from
it on does not.

The place is looked for by halving, so that a few items decide. In a list that parts, as an
ascending list does at every bound, it is the length of the longest front that satisfies the
condition (`partitionPoint_eq_length_takeWhile`). In any other list it is where the halving ends.
-/

set_option autoImplicit false
set_option relaxedAutoImplicit false

namespace PeerPanel

/-- Narrow a range of places down to one. Of its two halves the upper one is kept if its first place
satisfies the condition, else the lower one. -/
def narrow (holds : Nat → Bool) (first size : Nat) : Nat :=
  if size ≤ 1 then first
  else if holds (first + size / 2) then narrow holds (first + size / 2) (size - size / 2)
  else narrow holds first (size - size / 2)
termination_by size

private theorem narrow_eq_pred (holds : Nat → Bool) (point first size : Nat)
    (hp : ∀ i < first + size, holds i = decide (i < point)) (hf : first ≤ point - 1)
    (hs : point ≤ first + size) : narrow holds first size = point - 1 := by
  fun_induction narrow holds first size with
  | case1 first size h => omega
  | case2 first size h hm ih =>
    rw [hp _ (by omega), decide_eq_true_eq] at hm
    exact ih (fun i hi => hp i (by omega)) (by omega) (by omega)
  | case3 first size h hm ih =>
    rw [hp _ (by omega), decide_eq_true_eq] at hm
    exact ih (fun i hi => hp i (by omega)) hf (by omega)

private theorem narrow_lt (holds : Nat → Bool) (first size : Nat) (h : 0 < size) :
    narrow holds first size < first + size := by
  fun_induction narrow holds first size with
  | case1 first size => omega
  | case2 first size hs hm ih => have := ih (by omega); omega
  | case3 first size hs hm ih => have := ih (by omega); omega

section

variable {α : Type}

/-- The place in a list on which the halving ends. -/
def halvingEnd (p : α → Bool) (l : List α) : Nat := narrow (fun i => l[i]?.any p) 0 l.length

/-- The place at which a list parts: behind the end of the halving, or at it, if the item there does
not satisfy the condition. -/
def partitionPoint (p : α → Bool) (l : List α) : Nat :=
  let i := halvingEnd p l
  if l[i]?.any p then i + 1 else i

private theorem any_getElem?_eq (p : α → Bool) (l : List α)
    (h : l.Pairwise fun a b => p b → p a) (i : Nat) :
    l[i]?.any p = decide (i < (l.takeWhile p).length) := by
  induction l generalizing i with
  | nil => simp
  | cons a l ih =>
    obtain ⟨ha, hl⟩ := List.pairwise_cons.mp h
    cases hpa : p a with
    | true => cases i <;> simp [hpa, ih hl]
    | false =>
      cases i with
      | zero => simp [hpa]
      | succ i =>
        cases hi : l[i]? with
        | none => simp [hpa, hi]
        | some b =>
          have hb : p b = false := by
            cases hpb : p b with
            | false => rfl
            | true => exact absurd (ha b (List.mem_of_getElem? hi) hpb) (by simp [hpa])
          simp [hpa, hi, hb]

theorem halvingEnd_eq (p : α → Bool) (l : List α) (h : l.Pairwise fun a b => p b → p a) :
    halvingEnd p l = (l.takeWhile p).length - 1 := by
  have hle := (List.takeWhile_prefix p (l := l)).length_le
  exact narrow_eq_pred _ _ 0 l.length (fun i _ => any_getElem?_eq p l h i) (by omega) (by omega)

/-- A list that parts does so behind the longest front that satisfies the condition. -/
theorem partitionPoint_eq_length_takeWhile (p : α → Bool) (l : List α)
    (h : l.Pairwise fun a b => p b → p a) : partitionPoint p l = (l.takeWhile p).length := by
  simp only [partitionPoint, halvingEnd_eq p l h, any_getElem?_eq p l h, decide_eq_true_eq]
  split <;> omega

theorem partitionPoint_le_length (p : α → Bool) (l : List α) : partitionPoint p l ≤ l.length := by
  by_cases hl : l.length = 0
  · simp [List.length_eq_zero_iff.mp hl, partitionPoint, halvingEnd, narrow]
  · have : halvingEnd p l < 0 + l.length := narrow_lt _ 0 l.length (by omega)
    simp only [partitionPoint]
    split <;> omega

end

end PeerPanel
