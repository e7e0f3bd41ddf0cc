import PeerPanel.Search.Finder

/-!
What a finder remembers after it has applied or restored a query, and what it puts aside.
-/

set_option autoImplicit false
set_option relaxedAutoImplicit false

namespace PeerPanel.Search

def Hits.saved (h : Hits) (q : Query) : Saved :=
  { query := q, peerHits := some h.peer, migratedHits := h.migrated }

/-- What is known of a query put aside when it is taken up again: the hits that it was put aside
with, or else those of a search. -/
def Saved.found (s : Saved) (a : Account) : Hits :=
  match s.peerHits with
  | some peer => { peer, migrated := s.migratedHits }
  | none => run a s.query

namespace Finder

variable (f : Finder) (a : Account) (q r : Query) (s : Saved)

theorem contains_known_apply :
    (f.apply a q).known.contains r = true ↔
      r = q ∨ (q.text ≠ "" ∧ f.known.contains r = true) := by
  unfold apply
  by_cases empty : q.text = ""
  · simp [empty]
  · by_cases known : f.known.contains q = true
    · simp only [empty, if_false, known, if_true, ne_eq, not_false_eq_true, true_and]
      constructor
      · exact Or.inr
      · rintro (rfl | h)
        · exact known
        · exact h
    · simp [empty, known]

theorem contains_known_restore :
    (f.restore a s).known.contains r = true ↔ r = s.query ∨ f.known.contains r = true := by
  simp [restore]

theorem knows_iff : f.knows q = true ↔ q.text = "" ∨ f.known.contains q = true := by
  simp [knows]

variable {f}

variable {a q r}

theorem hits?_applied_apply : ((f.apply a q).hits? q).isSome = true :=
  (contains_known_apply f a q q).mpr (.inl rfl)

/-- Applying a query changes what is remembered of another one only by forgetting it. What is
remembered of the query itself stays, unless its text is empty. -/
theorem hits?_apply_cases {h : Hits} (known : (f.apply a q).hits? r = some h) :
    f.hits? r = some h ∨ r = q ∧ h = run a q ∧ (q.text ≠ "" → f.hits? q = none) := by
  simp only [apply, hits?] at known ⊢
  by_cases empty : q.text = ""
  · simp only [empty, if_true, Table.contains_empty, Bool.false_eq_true, if_false] at known
    rw [Table.get?_insert] at known
    split at known
    · next same => exact .inr ⟨same, (Option.some.inj known).symm, fun typed => absurd empty typed⟩
    · rw [Table.get?_empty] at known
      cases known
  · rw [if_neg empty] at known
    split at known
    · exact .inl known
    · next missing =>
      rw [Table.get?_insert] at known
      split at known
      · next same =>
        have unknown : f.known.get? q = none := by simpa [Table.contains] using missing
        exact .inr ⟨same, (Option.some.inj known).symm, fun _ => unknown⟩
      · exact .inl known

variable (a q r)

theorem save_of_hits? {h : Hits} (known : f.hits? f.applied = some h) :
    f.save = h.saved f.applied := by
  rw [save, known]
  rfl

theorem save_apply_of_unknown (unknown : f.knows q = false) :
    (f.apply a q).save = (run a q).saved q := by
  have typed : q.text ≠ "" := by
    intro empty
    simp [knows, empty] at unknown
  have missing : f.known.contains q = false := by
    simpa [knows, typed] using unknown
  have known : (f.apply a q).hits? q = some (run a q) := by
    simp [apply, hits?, typed, missing]
  exact save_of_hits? known

theorem hits?_restore :
    (f.restore a s).hits? r = if r = s.query then some (s.found a) else f.hits? r := by
  unfold restore hits?
  rw [Table.get?_insert]
  rfl

private theorem save_restore : (f.restore a s).save = (s.found a).saved s.query := by
  refine save_of_hits? ?_
  rw [applied_restore, hits?_restore, if_pos rfl]

theorem save_restore_of_peerHits {peer : List MsgId} (h : s.peerHits = some peer) :
    (f.restore a s).save = s := by
  obtain ⟨query, peerHits, migratedHits⟩ := s
  cases h
  exact save_restore a _

theorem save_restore_of_no_peerHits (h : s.peerHits = none) :
    (f.restore a s).save = (run a s.query).saved s.query := by
  rw [save_restore, Saved.found, h]

end Finder

end PeerPanel.Search
