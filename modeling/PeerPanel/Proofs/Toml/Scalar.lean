import Mathlib.Data.List.Infix
import PeerPanel.Toml.Scalar

/-!
A number is read back from its digits.

A run of digits is neither a date nor a time, for those need a sign between their digits, and it is
in no other base than ten. Main statement: `readScalar_toString`.
-/

set_option autoImplicit false
set_option relaxedAutoImplicit false

namespace PeerPanel.Toml

section

variable {s t rest : List Char} {n k : Nat} {c d : Char} {p : Char → Bool}

theorem ne_of_class (inside : p c = true) (outside : p d = false) : c ≠ d := by
  rintro rfl
  rw [inside] at outside
  cases outside

theorem takeWhile_append_cons (inside : ∀ d ∈ s, p d = true) (outside : p c = false) :
    (s ++ c :: rest).takeWhile p = s := by
  rw [List.takeWhile_append_of_pos inside]
  simp [outside]

theorem dropWhile_append_cons (inside : ∀ d ∈ s, p d = true) (outside : p c = false) :
    (s ++ c :: rest).dropWhile p = c :: rest := by
  rw [List.dropWhile_append_of_pos inside]
  simp [outside]

private theorem suffix_of_takeDigits (taken : takeDigits k s = some (n, t)) : t <:+ s := by
  have go : ∀ k m s, takeDigits.go m k s = some (n, t) → t <:+ s := by
    intro k
    induction k with
    | zero =>
      intro m s taken
      obtain ⟨-, rfl⟩ := Prod.mk.inj (Option.some.inj taken)
      exact List.suffix_refl _
    | succ k ih =>
      intro m s taken
      match s, taken with
      | c :: s, taken =>
        rw [takeDigits.go] at taken
        split at taken
        · exact (ih _ _ taken).trans (List.suffix_cons c s)
        · cases taken
  exact go k 0 s taken

private theorem takeChar_of_digits (sign : c.isDigit = false) (digits : ∀ d ∈ s, d.isDigit = true) :
    takeChar c s = none := by
  cases s with
  | nil => rfl
  | cons d s =>
    rw [takeChar, if_neg (ne_of_class (digits d List.mem_cons_self) sign)]

private theorem takeDate_of_digits (digits : ∀ d ∈ s, d.isDigit = true) : takeDate s = none := by
  unfold takeDate
  cases year : takeDigits 4 s with
  | none => rfl
  | some read =>
    have rest : takeChar '-' read.2 = none :=
      takeChar_of_digits (by decide) fun d mem => digits d ((suffix_of_takeDigits year).mem mem)
    simp [rest]

private theorem takeTime_of_digits (digits : ∀ d ∈ s, d.isDigit = true) : takeTime s = none := by
  unfold takeTime
  cases hour : takeDigits 2 s with
  | none => rfl
  | some read =>
    have rest : takeChar ':' read.2 = none :=
      takeChar_of_digits (by decide) fun d mem => digits d ((suffix_of_takeDigits hour).mem mem)
    simp [rest]

private theorem isDigitTo_ten (digit : c.isDigit = true) : isDigitTo 10 c = true := by
  have bounds : 48 ≤ c.toNat ∧ c.toNat ≤ 57 := by
    simpa [Char.isDigit, UInt32.le_iff_toNat_le] using digit
  simp only [isDigitTo, digitValue, digit, Bool.true_or, if_true, Bool.true_and, decide_eq_true_eq]
  omega

private theorem digitGroups_of_digits (filled : s ≠ []) (digits : ∀ d ∈ s, d.isDigit = true) :
    digitGroups (isDigitTo 10) s = some s := by
  induction s with
  | nil => exact absurd rfl filled
  | cons c s ih =>
    have digit := isDigitTo_ten (digits c List.mem_cons_self)
    have tail : ∀ d ∈ s, d.isDigit = true := fun d mem => digits d (List.mem_cons_of_mem c mem)
    match s, ih, tail with
    | [], _, _ => rw [digitGroups, if_pos digit]
    | d :: s, ih, tail =>
      rw [digitGroups, if_pos digit, ih (List.cons_ne_nil d s) tail]
      · rfl
      · simp
      · rintro _ ⟨rfl, -⟩
        exact absurd (tail '_' List.mem_cons_self) (by decide)

private theorem ofDigits_ten (digits : ∀ d ∈ s, d.isDigit = true) :
    ofDigits 10 s = Nat.ofDigitChars 10 s 0 := by
  unfold ofDigits Nat.ofDigitChars
  refine List.foldl_ext _ _ 0 fun m d mem => ?_
  simp [digitValue, digits d mem]

end

private theorem head?_toDigits (n : Nat) : (Nat.toDigits 10 n).head? = some '0' ↔ n = 0 := by
  induction n using Nat.strongRecOn with
  | ind n ih =>
    rw [Nat.toDigits_eq_if (by decide)]
    split
    · next small =>
      have table : ∀ m < 10, [Nat.digitChar m].head? = some '0' ↔ m = 0 := by decide
      exact table n small
    · next large =>
      rw [List.head?_append_of_ne_nil _ Nat.toDigits_ne_nil, ih (n / 10) (by omega)]
      omega

section

variable {n : Nat}

theorem isDigit_of_mem_toDigits : ∀ d ∈ Nat.toDigits 10 n, d.isDigit = true :=
  fun _ mem => Nat.isDigit_of_mem_toDigits (by decide) (by decide) mem

private theorem decimalDigits_toDigits :
    decimalDigits (Nat.toDigits 10 n) = some (Nat.toDigits 10 n) := by
  have noLeadingZero :
      ¬ ((Nat.toDigits 10 n).head? = some '0' ∧ Nat.toDigits 10 n ≠ ['0']) := by
    rintro ⟨zero, more⟩
    rw [head?_toDigits] at zero
    exact more (zero ▸ Nat.toDigits_zero 10)
  simp [decimalDigits, digitGroups_of_digits Nat.toDigits_ne_nil isDigit_of_mem_toDigits,
    noLeadingZero]

private theorem splitSign_toDigits :
    splitSign (Nat.toDigits 10 n) = (false, Nat.toDigits 10 n) := by
  have digits := @isDigit_of_mem_toDigits n
  unfold splitSign
  split
  · next written => exact absurd (digits '-' (by simp [written])) (by decide)
  · next written => exact absurd (digits '+' (by simp [written])) (by decide)
  · rfl

private theorem integer?_toDigits (fits : n ≤ 9223372036854775807) :
    integer? (Nat.toDigits 10 n) = some (.integer n) := by
  have digits := @isDigit_of_mem_toDigits n
  unfold integer?
  split
  · next written => exact absurd (digits 'x' (by simp [written])) (by decide)
  · next written => exact absurd (digits 'o' (by simp [written])) (by decide)
  · next written => exact absurd (digits 'b' (by simp [written])) (by decide)
  · have value : ofDigits 10 (Nat.toDigits 10 n) = n :=
      (ofDigits_ten digits).trans Nat.ofDigitChars_ten_toDigits
    have range : -9223372036854775808 ≤ (n : Int) ∧ (n : Int) ≤ 9223372036854775807 := by omega
    simp only [splitSign_toDigits, decimalDigits_toDigits]
    simpa [value, fitting] using range

theorem readScalar_toString (fits : n ≤ 9223372036854775807) {c : Char}
    (ends : isScalarChar c = false) (rest : List Char) :
    readScalar ((toString n).toList ++ c :: rest) = some (.integer n, c :: rest) := by
  have digits := @isDigit_of_mem_toDigits n
  have scalar : ∀ d ∈ Nat.toDigits 10 n, isScalarChar d = true := fun d mem => by
    simp [isScalarChar, Char.isAlphanum, digits d mem]
  have token : (Nat.toDigits 10 n ++ c :: rest).takeWhile isScalarChar = Nat.toDigits 10 n :=
    takeWhile_append_cons scalar ends
  have behind : (Nat.toDigits 10 n ++ c :: rest).dropWhile isScalarChar = c :: rest :=
    dropWhile_append_cons scalar ends
  have undated : isDate (Nat.toDigits 10 n) = false := by
    simp [isDate, takeDate_of_digits digits]
  have untimed : isDateTime (Nat.toDigits 10 n) = false := by
    simp [isDateTime, takeDate_of_digits digits, takeTime_of_digits digits]
  have word : ¬ (Nat.toDigits 10 n = ['t', 'r', 'u', 'e'] ∨
      Nat.toDigits 10 n = ['f', 'a', 'l', 's', 'e']) := by
    rintro (written | written) <;>
      exact absurd (digits 'e' (by simp [written])) (by decide)
  have meant : scalar? (Nat.toDigits 10 n) = some (.integer n) := by
    rw [scalar?, if_neg word, untimed, integer?_toDigits fits]
    rfl
  rw [Nat.toString_eq_repr, Nat.toList_repr]
  simp only [readScalar, token, behind, undated, meant]
  rfl

end

end PeerPanel.Toml
