import PeerPanel.Ids

/-!
Finite maps and ascending sets of message numbers.

A map is a list of bindings; inserting a key drops its older binding. A set is an ascending list,
and the order is part of the type. The lemmas say what each operation does to a look-up and to
membership, and are all that the other modules use.
-/

set_option autoImplicit false
set_option relaxedAutoImplicit false

namespace PeerPanel

/-- A finite map, kept as its bindings, the latest first. -/
structure Table (κ ν : Type) where
  bindings : List (κ × ν) := []
  deriving DecidableEq

namespace Table

variable {κ ν : Type} [DecidableEq κ]

def empty : Table κ ν := ⟨[]⟩

def get? (t : Table κ ν) (k : κ) : Option ν := t.bindings.lookup k

def contains (t : Table κ ν) (k : κ) : Bool := (t.get? k).isSome

def erase (t : Table κ ν) (k : κ) : Table κ ν := ⟨t.bindings.filter fun b => b.1 ≠ k⟩

def insert (t : Table κ ν) (k : κ) (v : ν) : Table κ ν := ⟨(k, v) :: (t.erase k).bindings⟩

/-- Change the value bound to a key, if there is one. -/
def modify (t : Table κ ν) (k : κ) (f : ν → ν) : Table κ ν :=
  match t.get? k with
  | some v => t.insert k (f v)
  | none => t

def mapValues (t : Table κ ν) (f : ν → ν) : Table κ ν := ⟨t.bindings.map fun b => (b.1, f b.2)⟩

/-- The values, the latest bound first. -/
def values (t : Table κ ν) : List ν := t.bindings.map (·.2)

@[simp] theorem get?_empty (k : κ) : (empty : Table κ ν).get? k = none := rfl

private theorem lookup_filter_ne (l : List (κ × ν)) (k j : κ) :
    (l.filter fun b => b.1 ≠ k).lookup j = if j = k then none else l.lookup j := by
  induction l with
  | nil => simp
  | cons b l ih =>
    obtain ⟨i, v⟩ := b
    by_cases hik : i = k
    · subst hik
      rw [List.filter_cons_of_neg (by simp), ih, List.lookup_cons]
      by_cases hj : j = i
      · simp [hj]
      · simp [hj, beq_eq_false_iff_ne.mpr hj]
    · rw [List.filter_cons_of_pos (by simpa using hik), List.lookup_cons, List.lookup_cons, ih]
      by_cases hji : j = i
      · subst hji
        simp [hik]
      · simp [beq_eq_false_iff_ne.mpr hji]

@[simp] theorem get?_erase (t : Table κ ν) (k j : κ) :
    (t.erase k).get? j = if j = k then none else t.get? j :=
  lookup_filter_ne t.bindings k j

@[simp] theorem get?_insert (t : Table κ ν) (k j : κ) (v : ν) :
    (t.insert k v).get? j = if j = k then some v else t.get? j := by
  show List.lookup j ((k, v) :: (t.erase k).bindings) = _
  rw [List.lookup_cons]
  by_cases h : j = k
  · simp [h]
  · rw [beq_eq_false_iff_ne.mpr h, if_neg h]
    exact (get?_erase t k j).trans (if_neg h)

@[simp] theorem contains_empty (k : κ) : (empty : Table κ ν).contains k = false := rfl

@[simp] theorem contains_insert (t : Table κ ν) (k j : κ) (v : ν) :
    (t.insert k v).contains j = (decide (j = k) || t.contains j) := by
  unfold contains
  rw [get?_insert]
  by_cases h : j = k
  · simp [h]
  · simp [h]

theorem get?_modify (t : Table κ ν) (k j : κ) (f : ν → ν) :
    (t.modify k f).get? j = if j = k then (t.get? k).map f else t.get? j := by
  unfold modify
  cases h : t.get? k with
  | none =>
    by_cases hj : j = k
    · simp [hj, h]
    · simp [hj]
  | some v => simp

end Table

/-- An ascending list of message numbers. -/
structure MsgSet where
  ids : List MsgId := []
  ascending : ids.Pairwise (· < ·) := by simp
  deriving DecidableEq

namespace MsgSet

def empty : MsgSet := {}

instance : Membership MsgId MsgSet := ⟨fun s m => m ∈ s.ids⟩

/-- Put a number at its place in an ascending list. -/
def place (m : MsgId) : List MsgId → List MsgId
  | [] => [m]
  | x :: xs => if x < m then x :: place m xs else if x = m then x :: xs else m :: x :: xs

private theorem mem_place (m x : MsgId) (l : List MsgId) : x ∈ place m l ↔ x = m ∨ x ∈ l := by
  induction l with
  | nil => simp [place]
  | cons y l ih =>
    rw [place]
    split
    · simp only [List.mem_cons, ih]
      exact or_left_comm
    · split
      · next h =>
        subst h
        simp
      · simp

private theorem place_ascending (m : MsgId) (l : List MsgId) (h : l.Pairwise (· < ·)) :
    (place m l).Pairwise (· < ·) := by
  induction l with
  | nil => simp [place]
  | cons y l ih =>
    obtain ⟨hy, hl⟩ := List.pairwise_cons.mp h
    rw [place]
    split
    · next hlt =>
      refine List.pairwise_cons.mpr ⟨fun x hx => ?_, ih hl⟩
      rcases (mem_place m x l).mp hx with rfl | hx
      · exact hlt
      · exact hy x hx
    · split
      · exact h
      · next hnlt hne =>
        have hmy : m < y := by
          have hne' : y.number ≠ m.number := fun e => hne (by cases y; cases m; cases e; rfl)
          have hnlt' : ¬ y.number < m.number := hnlt
          show m.number < y.number
          omega
        refine List.pairwise_cons.mpr ⟨fun x hx => ?_, h⟩
        rcases List.mem_cons.mp hx with rfl | hx
        · exact hmy
        · have hyx : y.number < x.number := hy x hx
          have hmy' : m.number < y.number := hmy
          show m.number < x.number
          omega

def insert (s : MsgSet) (m : MsgId) : MsgSet :=
  ⟨place m s.ids, place_ascending m s.ids s.ascending⟩

def erase (s : MsgSet) (m : MsgId) : MsgSet :=
  ⟨s.ids.filter (· ≠ m), s.ascending.filter _⟩

@[simp] theorem mem_ids (s : MsgSet) (x : MsgId) : x ∈ s.ids ↔ x ∈ s := Iff.rfl

@[simp] theorem not_mem_empty (x : MsgId) : x ∉ empty := by
  rw [← mem_ids]
  simp [empty]

@[simp] theorem mem_insert (s : MsgSet) (m x : MsgId) : x ∈ s.insert m ↔ x = m ∨ x ∈ s :=
  mem_place m x s.ids

@[simp] theorem mem_erase (s : MsgSet) (m x : MsgId) : x ∈ s.erase m ↔ x ∈ s ∧ x ≠ m := by
  rw [← mem_ids, erase, List.mem_filter]
  simp

end MsgSet

end PeerPanel
