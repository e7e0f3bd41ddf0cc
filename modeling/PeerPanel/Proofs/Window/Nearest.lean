import Mathlib.Algebra.Ring.Int.Defs
import PeerPanel.Proofs.Window.Cut

/-!
The position of a window that is nearest to a given one.

Of an ascending window only the last position below the given one and the first of the others are
compared (`nearest?_of_both`), and a member of the window is as near as any other if it is the
nearer of these two (`Beside.isNearest`). The two distances are signed numbers of 64 bits, and they
are taken only where there is a position on either side: where one of them is too large the search
stops, and nowhere else. Main statement: `nearest_exact`.
-/

set_option autoImplicit false
set_option relaxedAutoImplicit false

namespace PeerPanel

private theorem TimelineId.lt_iff {s t : TimelineId} : s < t ↔ s.number < t.number := Iff.rfl

private theorem TimelineId.le_iff {s t : TimelineId} : s ≤ t ↔ s.number ≤ t.number := Iff.rfl

private theorem subtract_of_le {a b : Int} (le : b ≤ a) :
    subtract a b = if a - b ≤ 2 ^ 63 - 1 then .ok (a - b) else .error .subtraction := by
  have fits : (-9223372036854775808 ≤ a - b ∧ a - b ≤ 9223372036854775807) ↔
      a - b ≤ 2 ^ 63 - 1 := by
    omega
  simp only [subtract, fits]

namespace MediaWindow

/-- The neighbours of a position in a window: a member below it and one that is not, with no member
between them. -/
structure Beside (w : MediaWindow) (t b a : TimelineId) : Prop where
  lower : b ∈ w.ids
  upper : a ∈ w.ids
  below : b < t
  rest : t ≤ a
  adjacent : ∀ x ∈ w.ids, x ≤ b ∨ a ≤ x

/-- The position has neighbours on both sides, and one of them is farther away than a signed number
of 64 bits can say. -/
def TooFar (w : MediaWindow) (t : TimelineId) : Prop :=
  ∃ b a, w.Beside t b a ∧
    (2 ^ 63 - 1 < t.number - b.number ∨ 2 ^ 63 - 1 < a.number - t.number)

/-- A member at the least distance of all, and the last one of those. -/
structure IsNearest (w : MediaWindow) (t m : TimelineId) : Prop where
  mem : m ∈ w.ids
  least : ∀ x ∈ w.ids, (m.number - t.number).natAbs ≤ (x.number - t.number).natAbs
  last : ∀ x ∈ w.ids, (x.number - t.number).natAbs = (m.number - t.number).natAbs → x ≤ m

variable {w : MediaWindow} {t a b m : TimelineId} {low high : List TimelineId}

private theorem isNearest_of_first (mem : a ∈ w.ids) (rest : t ≤ a) (first : ∀ x ∈ w.ids, a ≤ x) :
    w.IsNearest t a where
  mem := mem
  least x hx := by
    have above := first x hx
    simp only [TimelineId.le_iff] at above rest
    omega
  last x hx same := by
    have above := first x hx
    simp only [TimelineId.le_iff] at above rest ⊢
    omega

private theorem isNearest_of_last (mem : b ∈ w.ids) (below : b < t) (last : ∀ x ∈ w.ids, x ≤ b) :
    w.IsNearest t b where
  mem := mem
  least x hx := by
    have beneath := last x hx
    simp only [TimelineId.le_iff, TimelineId.lt_iff] at beneath below
    omega
  last x hx _ := last x hx

theorem Beside.isNearest (beside : w.Beside t b a) :
    w.IsNearest t (if t.number - b.number < a.number - t.number then b else a) := by
  have below := TimelineId.lt_iff.mp beside.below
  have rest := TimelineId.le_iff.mp beside.rest
  split
  · next nearer =>
    refine ⟨beside.lower, fun x hx => ?_, fun x hx same => ?_⟩
    all_goals
      have adjacent := beside.adjacent x hx
      simp only [TimelineId.le_iff] at adjacent ⊢
      omega
  · next farther =>
    refine ⟨beside.upper, fun x hx => ?_, fun x hx same => ?_⟩
    all_goals
      have adjacent := beside.adjacent x hx
      simp only [TimelineId.le_iff] at adjacent ⊢
      omega

private theorem Beside.unique {b' a' : TimelineId} (beside : w.Beside t b a)
    (other : w.Beside t b' a') : b' = b ∧ a' = a := by
  obtain ⟨lower, upper, below, rest, adjacent⟩ := beside
  obtain ⟨lower', upper', below', rest', adjacent'⟩ := other
  have first := adjacent b' lower'
  have second := adjacent a' upper'
  have third := adjacent' b lower
  have fourth := adjacent' a upper
  simp only [TimelineId.le_iff, TimelineId.lt_iff] at *
  exact ⟨congrArg TimelineId.mk (by omega), congrArg TimelineId.mk (by omega)⟩

private theorem tooFar_iff_of_beside (beside : w.Beside t b a) :
    w.TooFar t ↔ 2 ^ 63 - 1 < t.number - b.number ∨ 2 ^ 63 - 1 < a.number - t.number := by
  constructor
  · rintro ⟨b', a', other, far⟩
    obtain ⟨rfl, rfl⟩ := beside.unique other
    exact far
  · exact fun far => ⟨b, a, beside, far⟩

private theorem not_tooFar_of_first (rest : t ≤ a) (first : ∀ x ∈ w.ids, a ≤ x) : ¬ w.TooFar t := by
  rintro ⟨b, _, beside, -⟩
  have above := first b beside.lower
  exact Int.lt_irrefl _ (Int.lt_of_lt_of_le beside.below (Int.le_trans rest above))

private theorem not_tooFar_of_last (below : b < t) (last : ∀ x ∈ w.ids, x ≤ b) : ¬ w.TooFar t := by
  rintro ⟨_, a, beside, -⟩
  have beneath := last a beside.upper
  exact Int.lt_irrefl _ (Int.lt_of_lt_of_le below (Int.le_trans beside.rest beneath))

private theorem not_tooFar_of_within
    (within : ∀ x ∈ w.ids, -historyShift ≤ x.number ∧ x.number < historyShift) :
    ¬ w.TooFar t := by
  rintro ⟨b, a, beside, far⟩
  have lower := within b beside.lower
  have upper := within a beside.upper
  have below := TimelineId.lt_iff.mp beside.below
  have rest := TimelineId.le_iff.mp beside.rest
  unfold historyShift at lower upper
  omega

private theorem nearest?_of_none_below (parts : Parts t w.ids [] high) :
    w.nearest? t = .ok high.head? := by
  simp only [nearest?, parts.take_countBelow, parts.getElem?_countBelow]
  cases high <;> rfl

private theorem nearest?_of_none_above (parts : Parts t w.ids low []) :
    w.nearest? t = .ok low.getLast? := by
  simp only [nearest?, parts.take_countBelow, parts.getElem?_countBelow]
  cases low.getLast? <;> rfl

theorem nearest?_of_both (parts : Parts t w.ids (low ++ [b]) (a :: high)) :
    w.nearest? t = (do
      let back ← subtract t.number b.number
      let ahead ← subtract a.number t.number
      pure (some (if back < ahead then b else a))) := by
  simp only [nearest?, parts.take_countBelow, parts.getElem?_countBelow, List.getLast?_concat,
    List.head?_cons]

private theorem Parts.beside (parts : Parts t w.ids (low ++ [b]) (a :: high))
    (ascending : w.ids.Pairwise (· < ·)) : w.Beside t b a := by
  have lower : b ∈ low ++ [b] := List.mem_append_right low (List.mem_singleton_self b)
  have upper : a ∈ a :: high := List.mem_cons_self
  refine ⟨?_, ?_, parts.below b lower, parts.rest a upper, fun x hx => ?_⟩
  · exact parts.whole ▸ List.mem_append_left _ lower
  · exact parts.whole ▸ List.mem_append_right _ upper
  · rw [parts.whole] at ascending hx
    obtain ⟨before, after, -⟩ := List.pairwise_append.mp ascending
    rcases List.mem_append.mp hx with hx | hx
    · left
      rcases List.mem_append.mp hx with hx | hx
      · exact Int.le_of_lt ((List.pairwise_append.mp before).2.2 x hx b (by simp))
      · exact Int.le_of_eq (congrArg TimelineId.number (List.mem_singleton.mp hx))
    · right
      rcases List.mem_cons.mp hx with rfl | hx
      · exact Int.le_refl x.number
      · exact Int.le_of_lt ((List.pairwise_cons.mp after).1 x hx)

private theorem Parts.isNearest_first (parts : Parts t w.ids [] (a :: high))
    (ascending : w.ids.Pairwise (· < ·)) : w.IsNearest t a ∧ ¬ w.TooFar t := by
  have whole : w.ids = a :: high := parts.whole
  have mem : a ∈ w.ids := whole ▸ List.mem_cons_self
  have rest : t ≤ a := parts.rest a List.mem_cons_self
  have first : ∀ x ∈ w.ids, a ≤ x := by
    rw [whole] at ascending ⊢
    refine List.forall_mem_cons.mpr ⟨Int.le_refl a.number, fun x hx => ?_⟩
    exact Int.le_of_lt ((List.pairwise_cons.mp ascending).1 x hx)
  exact ⟨isNearest_of_first mem rest first, not_tooFar_of_first rest first⟩

private theorem Parts.isNearest_last (parts : Parts t w.ids (low ++ [b]) [])
    (ascending : w.ids.Pairwise (· < ·)) : w.IsNearest t b ∧ ¬ w.TooFar t := by
  have whole : w.ids = low ++ [b] := by rw [parts.whole, List.append_nil]
  have final : b ∈ low ++ [b] := List.mem_append_right low (List.mem_singleton_self b)
  have mem : b ∈ w.ids := whole ▸ final
  have below : b < t := parts.below b final
  have last : ∀ x ∈ w.ids, x ≤ b := by
    rw [whole] at ascending ⊢
    refine List.forall_mem_append.mpr ⟨fun x hx => ?_, ?_⟩
    · exact Int.le_of_lt ((List.pairwise_append.mp ascending).2.2 x hx b (by simp))
    · exact List.forall_mem_singleton.mpr (Int.le_refl b.number)
  exact ⟨isNearest_of_last mem below last, not_tooFar_of_last below last⟩

private theorem Beside.nearest?_cases (beside : w.Beside t b a)
    (parts : Parts t w.ids (low ++ [b]) (a :: high)) :
    (w.TooFar t ∧ w.nearest? t = .error .subtraction) ∨
      (¬ w.TooFar t ∧ w.nearest? t =
        .ok (some (if t.number - b.number < a.number - t.number then b else a))) := by
  have back := subtract_of_le (Int.le_of_lt beside.below)
  have ahead := subtract_of_le beside.rest
  rw [nearest?_of_both parts, tooFar_iff_of_beside beside]
  simp only [back, ahead]
  by_cases behind : t.number - b.number ≤ 2 ^ 63 - 1
  · by_cases before : a.number - t.number ≤ 2 ^ 63 - 1
    · right
      rw [if_pos behind, if_pos before]
      exact ⟨by omega, rfl⟩
    · left
      rw [if_pos behind, if_neg before]
      exact ⟨by omega, rfl⟩
  · left
    rw [if_neg behind]
    exact ⟨by omega, rfl⟩

/-- What the search for the nearest position comes to: there is nothing to find, or a neighbour is
too far away, or the nearest one is found. -/
private theorem nearest?_cases (ascending : w.ids.Pairwise (· < ·)) (t : TimelineId) :
    (w.ids = [] ∧ w.nearest? t = .ok none) ∨
    (w.TooFar t ∧ w.nearest? t = .error .subtraction) ∨
    (¬ w.TooFar t ∧ ∃ m, w.nearest? t = .ok (some m) ∧ w.IsNearest t m) := by
  obtain ⟨low, high, parts⟩ := exists_parts (ascending.imp Int.le_of_lt) t
  rcases List.eq_nil_or_concat low with rfl | ⟨low, b, rfl⟩
  · cases high with
    | nil => exact .inl ⟨parts.whole, nearest?_of_none_below parts⟩
    | cons a high =>
      obtain ⟨nearest, near⟩ := parts.isNearest_first ascending
      exact .inr (.inr ⟨near, a, nearest?_of_none_below parts, nearest⟩)
  · rw [List.concat_eq_append] at parts
    cases high with
    | nil =>
      obtain ⟨nearest, near⟩ := parts.isNearest_last ascending
      have found := nearest?_of_none_above parts
      rw [List.getLast?_concat] at found
      exact .inr (.inr ⟨near, b, found, nearest⟩)
    | cons a high =>
      have beside := parts.beside ascending
      rcases beside.nearest?_cases parts with ⟨far, stops⟩ | ⟨near, found⟩
      · exact .inr (.inl ⟨far, stops⟩)
      · exact .inr (.inr ⟨near, _, found, beside.isNearest⟩)

/-- In a strictly ascending window the nearest position is found for every other one: none if the
window is empty, and a member at the least distance of all otherwise, the last one of those. The
search stops exactly if there are neighbours on both sides and one of them is farther away than a
signed number of 64 bits can say, and so it never stops in a window that reaches no farther than
the shift, below zero and above. -/
theorem nearest_exact (ascending : w.ids.Pairwise (· < ·)) (t : TimelineId) :
    (w.nearest? t = .ok none ↔ w.ids = []) ∧
    (∀ fault, w.nearest? t = .error fault ↔ fault = .subtraction ∧ w.TooFar t) ∧
    (w.ids ≠ [] → ¬ w.TooFar t → ∃ m, w.nearest? t = .ok (some m) ∧ w.IsNearest t m) ∧
    ((∀ x ∈ w.ids, -historyShift ≤ x.number ∧ x.number < historyShift) →
      ∃ found, w.nearest? t = .ok found) := by
  rcases nearest?_cases ascending t with ⟨empty, found⟩ | ⟨far, stops⟩ | ⟨near, m, found, nearest⟩
  · have near : ¬ w.TooFar t := not_tooFar_of_within (by simp [empty])
    simp [found, empty, near]
  · have filled : w.ids ≠ [] := by
      obtain ⟨b, _, beside, -⟩ := far
      exact List.ne_nil_of_mem beside.lower
    refine ⟨?_, ?_, ?_, ?_⟩
    · simp [stops, filled]
    · simp [stops, far, eq_comm]
    · exact fun _ near => absurd far near
    · exact fun within => absurd far (not_tooFar_of_within within)
  · have filled : w.ids ≠ [] := List.ne_nil_of_mem nearest.mem
    refine ⟨?_, ?_, ?_, ?_⟩
    · simp [found, filled]
    · simp [found, near]
    · exact fun _ _ => ⟨m, found, nearest⟩
    · exact fun _ => ⟨some m, found⟩

/-- Three positions, the first of which has the lowest number of all. -/
def wideWindow : MediaWindow :=
  cut edgeKey .merged [⟨-2 ^ 63⟩, ⟨3⟩, ⟨7⟩] 5 5

private theorem ids_wideWindow : wideWindow.ids = [⟨-2 ^ 63⟩, ⟨3⟩, ⟨7⟩] := by decide +kernel

/-- Right of the lowest position its distance is too large, and halfway between the two others the
second one is nearest. -/
theorem lowest_position_too_far :
    wideWindow.nearest? ⟨1⟩ = .error .subtraction ∧ wideWindow.nearest? ⟨5⟩ = .ok (some ⟨7⟩) := by
  have ascending : wideWindow.ids.Pairwise (· < ·) := by rw [ids_wideWindow]; decide
  have apart : wideWindow.Beside ⟨1⟩ ⟨-2 ^ 63⟩ ⟨3⟩ :=
    ⟨by simp [ids_wideWindow], by simp [ids_wideWindow], by decide, by decide,
      by rw [ids_wideWindow]; decide⟩
  have between : wideWindow.Beside ⟨5⟩ ⟨3⟩ ⟨7⟩ :=
    ⟨by simp [ids_wideWindow], by simp [ids_wideWindow], by decide, by decide,
      by rw [ids_wideWindow]; decide⟩
  have far : wideWindow.TooFar ⟨1⟩ := ⟨_, _, apart, .inl (by decide)⟩
  have near : ¬ wideWindow.TooFar ⟨5⟩ := by rw [tooFar_iff_of_beside between]; decide
  have filled : wideWindow.ids ≠ [] := List.ne_nil_of_mem between.lower
  obtain ⟨m, found, nearest⟩ := (nearest_exact ascending ⟨5⟩).2.2.1 filled near
  have middle : m = ⟨7⟩ := by
    have mem := nearest.mem
    simp only [ids_wideWindow, List.mem_cons, List.not_mem_nil, or_false] at mem
    rcases mem with rfl | rfl | rfl
    · exact absurd (nearest.least _ between.upper) (by decide)
    · exact absurd (nearest.last _ between.upper rfl) (by decide)
    · rfl
  exact ⟨((nearest_exact ascending ⟨1⟩).2.1 _).mpr ⟨rfl, far⟩, middle ▸ found⟩

end MediaWindow

end PeerPanel
