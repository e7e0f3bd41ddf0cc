import PeerPanel.MediaWindow

/-!
What a window holds of the timeline that it is cut from.

An ascending timeline falls at the anchor into the positions below it and the others (`Parts`). A
window is the end of the first part, as long as asked for, followed by the front of the second
(`Parts.cut_eq`), and its counts are the lengths of what is left over on both sides. A machine
computes the bounds in unsigned numbers of 64 bits, of which a sum stops at the highest and a
difference at zero; the limits at which they do so are beyond the ends of every timeline, so the
window is the same (`cutInWords_eq`). Main statement: `window_exact`.
-/

set_option autoImplicit false
set_option relaxedAutoImplicit false

namespace PeerPanel

private theorem TimelineId.not_lt {s t : TimelineId} : ¬ s < t ↔ t ≤ s := Int.not_lt

private theorem TimelineId.not_le {s t : TimelineId} : ¬ s ≤ t ↔ t < s := Int.not_le

namespace MediaWindow

/-- A timeline falls at an anchor into what is below it and what is not. -/
structure Parts (anchor : TimelineId) (all low high : List TimelineId) : Prop where
  whole : all = low ++ high
  below : ∀ t ∈ low, t < anchor
  rest : ∀ t ∈ high, anchor ≤ t

theorem exists_parts {all : List TimelineId} (ascending : all.Pairwise (· ≤ ·))
    (anchor : TimelineId) : ∃ low high, Parts anchor all low high := by
  induction all with
  | nil => exact ⟨[], [], rfl, by simp, by simp⟩
  | cons t all ih =>
    obtain ⟨first, later⟩ := List.pairwise_cons.mp ascending
    by_cases below : t < anchor
    · obtain ⟨low, high, whole, lower, rest⟩ := ih later
      exact ⟨t :: low, high, by rw [whole]; rfl, List.forall_mem_cons.mpr ⟨below, lower⟩, rest⟩
    · have least : anchor ≤ t := TimelineId.not_lt.mp below
      refine ⟨[], t :: all, rfl, by simp, List.forall_mem_cons.mpr ⟨least, fun s mem => ?_⟩⟩
      exact Int.le_trans least (first s mem)

namespace Parts

variable {anchor : TimelineId} {all low high : List TimelineId}

private theorem countBelow_eq (parts : Parts anchor all low high) :
    countBelow all anchor = low.length := by
  have lower : ∀ t ∈ low, decide (t < anchor) = true := by simpa using parts.below
  have unlower : ∀ t ∈ high, decide (t < anchor) = false := by
    simpa [TimelineId.not_lt] using parts.rest
  have parting : all.Pairwise fun s t => decide (t < anchor) → decide (s < anchor) := by
    rw [parts.whole]
    refine List.pairwise_append.mpr ⟨?_, ?_, fun s hs _ _ _ => lower s hs⟩
    · exact List.pairwise_of_forall_mem_list fun s hs _ _ _ => lower s hs
    · refine List.pairwise_of_forall_mem_list fun s _ t ht later => ?_
      rw [unlower t ht] at later
      cases later
  have front : all.takeWhile (· < anchor) = low := by
    rw [parts.whole, List.takeWhile_append_of_pos lower]
    cases high with
    | nil => exact List.append_nil low
    | cons t high =>
      rw [List.takeWhile_cons_of_neg (by simp [unlower t List.mem_cons_self]), List.append_nil]
  rw [countBelow, partitionPoint_eq_length_takeWhile _ _ parting, front]

theorem take_countBelow (parts : Parts anchor all low high) :
    all.take (countBelow all anchor) = low := by
  rw [parts.countBelow_eq, parts.whole, List.take_left]

theorem getElem?_countBelow (parts : Parts anchor all low high) :
    all[countBelow all anchor]? = high.head? := by
  rw [parts.countBelow_eq, parts.whole, List.getElem?_append_right (Nat.le_refl _), Nat.sub_self,
    List.head?_eq_getElem?]

private theorem countP_lt_eq (parts : Parts anchor all low high) :
    all.countP (· < anchor) = low.length := by
  have lower : low.countP (· < anchor) = low.length :=
    List.countP_eq_length.mpr (by simpa using parts.below)
  have none : high.countP (· < anchor) = 0 :=
    List.countP_eq_zero.mpr (by simpa [TimelineId.not_lt] using parts.rest)
  rw [parts.whole, List.countP_append, lower, none, Nat.add_zero]

private theorem countP_le_eq (parts : Parts anchor all low high) :
    all.countP (anchor ≤ ·) = high.length := by
  have none : low.countP (anchor ≤ ·) = 0 :=
    List.countP_eq_zero.mpr (by simpa [TimelineId.not_le] using parts.below)
  have later : high.countP (anchor ≤ ·) = high.length :=
    List.countP_eq_length.mpr (by simpa using parts.rest)
  rw [parts.whole, List.countP_append, none, later, Nat.zero_add]

private theorem narrow (parts : Parts anchor all low high) (n m : Nat) :
    Parts anchor (low.drop n ++ high.take m) (low.drop n) (high.take m) where
  whole := rfl
  below t mem := parts.below t (List.mem_of_mem_drop mem)
  rest t mem := parts.rest t (List.mem_of_mem_take mem)

end Parts

section

variable {key : WindowKey} {origin : WindowOrigin} {all low high : List TimelineId}
  {before after : Nat}

private theorem stop_eq (low high before after : Nat) :
    max (min (low + after + 1) (low + high)) (low - before) = low + min (after + 1) high := by
  omega

theorem Parts.cut_eq (parts : Parts key.around all low high) :
    cut key origin all before after =
      { key, origin
        ids := low.drop (low.length - before) ++ high.take (after + 1)
        fullCount := all.length
        skippedBefore := low.length - before
        skippedAfter := high.length - (after + 1) } := by
  have stop := stop_eq low.length high.length before after
  have ids : (all.take (low.length + min (after + 1) high.length)).drop (low.length - before) =
      low.drop (low.length - before) ++ high.take (after + 1) := by
    rw [parts.whole, List.take_length_add_append, ← List.take_eq_take_min,
      List.drop_append_of_le_length (Nat.sub_le _ _)]
  have length : all.length = low.length + high.length := by rw [parts.whole, List.length_append]
  have skipped : all.length - (low.length + min (after + 1) high.length) =
      high.length - (after + 1) := by
    omega
  rw [← length] at stop
  simp only [cut, parts.countBelow_eq, stop, ids, skipped]

theorem mem_of_mem_cut {t : TimelineId} (mem : t ∈ (cut key origin all before after).ids) :
    t ∈ all :=
  List.mem_of_mem_take (List.mem_of_mem_drop mem)

theorem anchor_mem_cut (ascending : all.Pairwise (· ≤ ·)) (mem : key.around ∈ all) :
    key.around ∈ (cut key origin all before after).ids := by
  obtain ⟨low, high, parts⟩ := exists_parts ascending key.around
  rw [parts.cut_eq]
  rw [parts.whole, List.mem_append] at mem
  rw [parts.whole, List.pairwise_append] at ascending
  have later : key.around ∈ high :=
    mem.resolve_left fun mem => Int.lt_irrefl _ (parts.below _ mem)
  cases high with
  | nil => cases later
  | cons t high =>
    -- the anchor stands first in the upper part, since nothing in it is below the anchor
    have first : key.around = t := by
      rcases List.mem_cons.mp later with same | mem
      · exact same
      · have least := parts.rest t List.mem_cons_self
        have le := (List.pairwise_cons.mp ascending.2.1).1 _ mem
        exact congrArg TimelineId.mk (Int.le_antisymm least le)
    rw [List.take_succ_cons, first]
    exact List.mem_append_right _ List.mem_cons_self

end

section Index

private theorem halvingEnd_of_split {t : TimelineId} {front back : List TimelineId}
    (ascending : (front ++ t :: back).Pairwise (· < ·)) :
    halvingEnd (· ≤ t) (front ++ t :: back) = front.length := by
  have parting : (front ++ t :: back).Pairwise fun r s => decide (s ≤ t) → decide (r ≤ t) :=
    ascending.imp fun {r s} less le => by
      simp only [decide_eq_true_eq] at le ⊢
      exact Int.le_trans (Int.le_of_lt less) le
  obtain ⟨-, later, earlier⟩ := List.pairwise_append.mp ascending
  have lower : ∀ s ∈ front, decide (s ≤ t) = true := fun s hs =>
    decide_eq_true (Int.le_of_lt (earlier s hs t List.mem_cons_self))
  have least : t ≤ t := Int.le_refl t.number
  have alone : (t :: back).takeWhile (· ≤ t) = [t] := by
    cases back with
    | nil => simp [least]
    | cons s back =>
      have above := TimelineId.not_le.mpr ((List.pairwise_cons.mp later).1 s List.mem_cons_self)
      simp [least, above]
  rw [halvingEnd_eq _ _ parting, List.takeWhile_append_of_pos lower, alone, List.length_append,
    List.length_singleton, Nat.add_sub_cancel]

variable {w : MediaWindow} {t : TimelineId}

private theorem indexOf?_eq_some_iff (ascending : w.ids.Pairwise (· < ·)) {i : Nat} :
    w.indexOf? t = some i ↔ w.get? i = some t := by
  unfold indexOf? get?
  constructor
  · intro found
    dsimp only at found
    split at found
    · next stands =>
      cases found
      exact stands
    · cases found
  · intro stands
    obtain ⟨inside, here⟩ := List.getElem?_eq_some_iff.mp stands
    have split : w.ids.take i ++ t :: w.ids.drop (i + 1) = w.ids := by
      rw [← here, List.getElem_cons_drop, List.take_append_drop]
    rw [← split] at ascending
    have ends := halvingEnd_of_split ascending
    rw [split, List.length_take, Nat.min_eq_left (Nat.le_of_lt inside)] at ends
    simp only [ends, stands, if_true]

private theorem indexOf?_eq_none_iff (ascending : w.ids.Pairwise (· < ·)) :
    w.indexOf? t = none ↔ t ∉ w.ids := by
  constructor
  · intro none mem
    obtain ⟨i, stands⟩ := List.mem_iff_getElem?.mp mem
    rw [(indexOf?_eq_some_iff ascending).mpr stands] at none
    cases none
  · intro outside
    cases found : w.indexOf? t with
    | none => rfl
    | some i =>
      have stands := (indexOf?_eq_some_iff ascending).mp found
      exact absurd (List.mem_of_getElem? stands) outside

end Index

section Words

/-- The sum of two unsigned numbers of 64 bits, or the highest one if it is too large. -/
def cappedSum (a b : UInt64) : UInt64 :=
  if a.toNat + b.toNat ≤ 18446744073709551615 then a + b else 18446744073709551615

/-- The difference of two unsigned numbers, or zero. -/
def cappedDifference (a b : UInt64) : UInt64 := if b ≤ a then a - b else 0

private theorem toNat_cappedSum (a b : UInt64) :
    (cappedSum a b).toNat = min (a.toNat + b.toNat) 18446744073709551615 := by
  unfold cappedSum
  split
  · next fits =>
    rw [UInt64.toNat_add, Nat.mod_eq_of_lt (Nat.lt_succ_of_le fits), Nat.min_eq_left fits]
  · next large => exact (Nat.min_eq_right (Nat.le_of_lt (Nat.not_le.mp large))).symm

private theorem toNat_cappedDifference (a b : UInt64) :
    (cappedDifference a b).toNat = a.toNat - b.toNat := by
  unfold cappedDifference
  split
  · next le => exact UInt64.toNat_sub_of_le a b le
  · next lt =>
    have below : a.toNat < b.toNat := Nat.not_le.mp lt
    exact (Nat.sub_eq_zero_of_le (Nat.le_of_lt below)).symm

private theorem toNat_min (a b : UInt64) : (min a b).toNat = min a.toNat b.toNat := by
  show (if a ≤ b then a else b).toNat = _
  split
  · next le => exact (Nat.min_eq_left le).symm
  · next lt => exact (Nat.min_eq_right (Nat.le_of_lt (Nat.not_le.mp lt))).symm

private theorem toNat_max (a b : UInt64) : (max a b).toNat = max a.toNat b.toNat := by
  show (if a ≤ b then b else a).toNat = _
  split
  · next le => exact (Nat.max_eq_right le).symm
  · next lt => exact (Nat.max_eq_left (Nat.le_of_lt (Nat.not_le.mp lt))).symm

/-- Where a window begins and where it stops, computed in words of 64 bits. -/
def boundsInWords (place length before after : UInt64) : UInt64 × UInt64 :=
  let first := cappedDifference place before
  (first, max (min (cappedSum (cappedSum place after) 1) length) first)

/-- A sum that is capped is beyond every length below the cap, so the cap does not show. -/
private theorem min_capped {length cap : Nat} (inside : length ≤ cap) (sum : Nat) :
    min (min (min sum cap + 1) cap) length = min (sum + 1) length := by
  omega

private theorem toNat_boundsInWords (place length before after : UInt64) :
    (boundsInWords place length before after).1.toNat = place.toNat - before.toNat ∧
    (boundsInWords place length before after).2.toNat =
      max (min (place.toNat + after.toNat + 1) length.toNat) (place.toNat - before.toNat) := by
  have one : (1 : UInt64).toNat = 1 := rfl
  have word : length.toNat ≤ 18446744073709551615 := Nat.le_of_lt_succ length.toNat_lt
  refine ⟨toNat_cappedDifference place before, ?_⟩
  simp only [boundsInWords, toNat_max, toNat_min, toNat_cappedSum, toNat_cappedDifference, one,
    min_capped word]

/-- The cut with bounds that are computed in words of 64 bits. There is none if the bounds are out
of order, or beyond the end of the timeline. -/
def cutInWords (key : WindowKey) (origin : WindowOrigin) (all : List TimelineId)
    (before after : UInt64) : Option MediaWindow :=
  let length := UInt64.ofNat all.length
  let place := UInt64.ofNat (countBelow all key.around)
  let bounds := boundsInWords place length before after
  if bounds.1 ≤ bounds.2 ∧ bounds.2 ≤ length then
    some
      { key, origin
        ids := (all.take bounds.2.toNat).drop bounds.1.toNat
        fullCount := length.toNat
        skippedBefore := bounds.1.toNat
        skippedAfter := (length - bounds.2).toNat }
  else none

theorem cutInWords_eq (key : WindowKey) (origin : WindowOrigin) {all : List TimelineId}
    (short : all.length < UInt64.size) (before after : UInt64) :
    cutInWords key origin all before after =
      some (cut key origin all before.toNat after.toNat) := by
  have inside : countBelow all key.around ≤ all.length := partitionPoint_le_length _ all
  have length : (UInt64.ofNat all.length).toNat = all.length := UInt64.toNat_ofNat_of_lt' short
  have place : (UInt64.ofNat (countBelow all key.around)).toNat = countBelow all key.around :=
    UInt64.toNat_ofNat_of_lt' (Nat.lt_of_le_of_lt inside short)
  obtain ⟨first, stop⟩ := toNat_boundsInWords (UInt64.ofNat (countBelow all key.around))
    (UInt64.ofNat all.length) before after
  rw [length, place] at stop
  rw [place] at first
  simp only [cutInWords]
  generalize boundsInWords (UInt64.ofNat (countBelow all key.around)) (UInt64.ofNat all.length)
    before after = bounds at first stop ⊢
  generalize UInt64.ofNat all.length = last at length ⊢
  have ordered : bounds.1 ≤ bounds.2 := UInt64.le_iff_toNat_le.mpr (by omega)
  have ends : bounds.2 ≤ last := UInt64.le_iff_toNat_le.mpr (by omega)
  have skipped : (last - bounds.2).toNat = all.length - bounds.2.toNat := by
    rw [UInt64.toNat_sub_of_le last bounds.2 ends, length]
  simp only [cut, ordered, ends, and_self, if_true, skipped, first, stop, length]

end Words

/-- The window of an ascending timeline is the part of it between the two counts of what is left
out, which add up to the whole with it. It holds as many of the positions below the anchor as asked
for, the last ones of them, and one more than asked for of the others, as far as there are any; and
limits of 64 bits yield it, up to the highest. In a strictly ascending timeline an index stands for
the position that stands at it, and no other position has one. -/
theorem window_exact (key : WindowKey) (origin : WindowOrigin) {all : List TimelineId}
    (ascending : all.Pairwise (· ≤ ·)) (before after : UInt64) :
    let w := cut key origin all before.toNat after.toNat
    let place := all.countP (· < key.around)
    (all.length < UInt64.size → cutInWords key origin all before after = some w) ∧
    w.ids = (all.drop w.skippedBefore).take w.size ∧
    w.skippedBefore + w.size + w.skippedAfter = w.fullCount ∧ w.fullCount = all.length ∧
    w.ids.countP (· < key.around) = min before.toNat place ∧
    w.ids.countP (key.around ≤ ·) = min (after.toNat + 1) (all.length - place) ∧
    (all.Pairwise (· < ·) → ∀ t,
      (∀ i, w.indexOf? t = some i ↔ w.get? i = some t) ∧ (w.indexOf? t = none ↔ t ∉ w.ids)) := by
  intro w place
  obtain ⟨low, high, parts⟩ := exists_parts ascending key.around
  have whole : w = _ := parts.cut_eq
  have narrowed := parts.narrow (low.length - before.toNat) (after.toNat + 1)
  have length : all.length = low.length + high.length := by rw [parts.whole, List.length_append]
  have below : place = low.length := parts.countP_lt_eq
  have part : w.ids = (all.drop w.skippedBefore).take w.size := by
    have left : all.drop (low.length - before.toNat) =
        low.drop (low.length - before.toNat) ++ high := by
      rw [parts.whole, List.drop_append_of_le_length (Nat.sub_le _ _)]
    rw [size, whole, left, List.length_append, List.take_length_add_append, List.length_take,
      ← List.take_eq_take_min]
  refine ⟨fun short => cutInWords_eq key origin short before after, part, ?_, rfl, ?_, ?_, ?_⟩
  · rw [size, whole]
    simp only [List.length_append, List.length_drop, List.length_take]
    omega
  · rw [whole, narrowed.countP_lt_eq, below, List.length_drop]
    omega
  · rw [whole, narrowed.countP_le_eq, below, List.length_take]
    omega
  · intro strict t
    have within : w.ids.Pairwise (· < ·) := by
      rw [part]
      exact (strict.sublist (List.drop_sublist _ all)).sublist (List.take_sublist _ _)
    exact ⟨fun i => indexOf?_eq_some_iff within, indexOf?_eq_none_iff within⟩

def edgeKey : WindowKey := { peer := ⟨2⟩, migrated := some ⟨1⟩, around := ⟨3⟩, kind := .file }

/-- Two positions below the anchor of `edgeKey`, and two above it. -/
def edgeList : List TimelineId := [⟨-9⟩, ⟨1⟩, ⟨4⟩, ⟨6⟩]

/-- The highest limits of 64 bits take the whole timeline into the window. -/
theorem highest_limits_take_all :
    let w := cut edgeKey .merged edgeList (UInt64.toNat (-1)) (UInt64.toNat (-1))
    cutInWords edgeKey .merged edgeList (-1) (-1) = some w ∧
      w.ids.countP (· < ⟨3⟩) = 2 ∧ w.ids.countP (⟨3⟩ ≤ ·) = 2 ∧
      w.indexOf? ⟨6⟩ = some 3 ∧ w.indexOf? ⟨3⟩ = none := by
  intro w
  have ascending : edgeList.Pairwise (· ≤ ·) := by decide
  have strict : edgeList.Pairwise (· < ·) := by decide
  obtain ⟨words, -, -, -, below, rest, index⟩ :=
    window_exact edgeKey .merged ascending (-1) (-1)
  have whole : w.ids = edgeList := by decide +kernel
  have stands : w.get? 3 = some ⟨6⟩ := by rw [get?, whole]; rfl
  have outside : (⟨3⟩ : TimelineId) ∉ w.ids := by rw [whole]; decide
  exact ⟨words (by decide), below, rest, ((index strict ⟨6⟩).1 3).mpr stands,
    (index strict ⟨3⟩).2.mpr outside⟩

end MediaWindow

end PeerPanel
