import PeerPanel.Text.Lowercase

/-!
The lower case of a part of a text.

Every character but one is put into lower case without a look at its neighbours. A capital sigma
asks whether it ends a word, and a part that is cut out of a text can answer otherwise than the
text does. So the lower case of a part, alone, is what stands at its place in the lower case of the
whole text if and only if no sigma of it changes its answer (`lowerWithin_eq_lowercase_iff`).
-/

set_option autoImplicit false
set_option relaxedAutoImplicit false

namespace PeerPanel.Text

/-- A capital sigma ends a word between two texts, the one before it nearest first. -/
def endsWord (before behind : List Char) : Bool := nextIsCased before && !nextIsCased behind

/-- The lower case of a text, given what stands before it, nearest first, and behind it. -/
def lowerWithin (before : List Char) : List Char → List Char → List Char
  | [], _ => []
  | c :: rest, behind => lowerAt before c (rest ++ behind) ++ lowerWithin (c :: before) rest behind

private theorem lowerAt_sigma (before behind : List Char) :
    lowerAt before 'Σ' behind = if endsWord before behind then ['ς'] else ['σ'] := rfl

private theorem lowerAt_congr_iff (c : Char) (before behind before' behind' : List Char) :
    lowerAt before c behind = lowerAt before' c behind' ↔
      (c = 'Σ' → endsWord before behind = endsWord before' behind') := by
  by_cases sigma : c = 'Σ'
  · subst sigma
    rw [lowerAt_sigma, lowerAt_sigma]
    cases endsWord before behind <;> cases endsWord before' behind' <;> decide
  · simp [lowerAt, sigma]

private theorem length_lowerAt (c : Char) (before behind before' behind' : List Char) :
    (lowerAt before c behind).length = (lowerAt before' c behind').length := by
  unfold lowerAt
  split
  · split <;> split <;> rfl
  · split <;> rfl

private theorem lowerFrom_append (before cs behind : List Char) :
    lowerFrom before (cs ++ behind) =
      lowerWithin before cs behind ++ lowerFrom (cs.reverse ++ before) behind := by
  induction cs generalizing before with
  | nil => rfl
  | cons c rest ih =>
    rw [List.cons_append, lowerFrom, ih, lowerWithin, List.append_assoc, List.reverse_cons,
      List.append_assoc, List.singleton_append]

private theorem lowercase_eq_lowerWithin (cs : List Char) :
    lowercase cs = lowerWithin [] cs [] := by
  have whole := lowerFrom_append [] cs []
  rwa [List.append_nil, lowerFrom, List.append_nil] at whole

theorem lowerWithin_infix_lowercase (pre cs post : List Char) :
    lowerWithin pre.reverse cs post <:+: lowercase (pre ++ cs ++ post) := by
  have parts : lowercase (pre ++ cs ++ post) =
      lowerWithin [] pre (cs ++ post) ++ lowerWithin pre.reverse cs post ++
        lowerFrom (cs.reverse ++ pre.reverse) post := by
    rw [lowercase, List.append_assoc, lowerFrom_append, lowerFrom_append, List.append_nil,
      List.append_assoc]
  exact ⟨_, _, parts.symm⟩

/-- Every sigma of a text ends a word in the one surrounding if and only if it does so in the
other. The text before is given nearest first. -/
def SigmasAgree (cs before behind before' behind' : List Char) : Prop :=
  ∀ u v, cs = u ++ 'Σ' :: v →
    endsWord (u.reverse ++ before) (v ++ behind) = endsWord (u.reverse ++ before') (v ++ behind')

theorem sigmasAgree_of_not_mem {cs : List Char} (plain : 'Σ' ∉ cs)
    (before behind before' behind' : List Char) :
    SigmasAgree cs before behind before' behind' := by
  rintro u v rfl
  exact absurd (by simp) plain

private theorem sigmasAgree_cons (c : Char) (rest before behind before' behind' : List Char) :
    SigmasAgree (c :: rest) before behind before' behind' ↔
      (c = 'Σ' → endsWord before (rest ++ behind) = endsWord before' (rest ++ behind')) ∧
      SigmasAgree rest (c :: before) behind (c :: before') behind' := by
  constructor
  · intro agree
    refine ⟨?_, ?_⟩
    · rintro rfl
      exact agree [] rest rfl
    · rintro u v rfl
      have further := agree (c :: u) v rfl
      rwa [List.reverse_cons, List.append_assoc, List.append_assoc] at further
  · rintro ⟨head, further⟩ u v split
    cases u with
    | nil =>
      obtain ⟨rfl, rfl⟩ := List.cons.inj split
      exact head rfl
    | cons d u =>
      obtain ⟨rfl, rfl⟩ := List.cons.inj split
      rw [List.reverse_cons, List.append_assoc, List.append_assoc]
      exact further u v rfl

instance decidableSigmasAgree : (cs before behind before' behind' : List Char) →
    Decidable (SigmasAgree cs before behind before' behind')
  | [], before, behind, before', behind' =>
    isTrue (sigmasAgree_of_not_mem List.not_mem_nil before behind before' behind')
  | c :: rest, before, behind, before', behind' =>
    have := decidableSigmasAgree rest (c :: before) behind (c :: before') behind'
    decidable_of_iff' _ (sigmasAgree_cons c rest before behind before' behind')

private theorem lowerWithin_congr_iff (cs before behind before' behind' : List Char) :
    lowerWithin before cs behind = lowerWithin before' cs behind' ↔
      SigmasAgree cs before behind before' behind' := by
  induction cs generalizing before before' with
  | nil => simp only [lowerWithin, sigmasAgree_of_not_mem List.not_mem_nil]
  | cons c rest ih =>
    rw [sigmasAgree_cons, ← ih, ← lowerAt_congr_iff, lowerWithin, lowerWithin]
    constructor
    · intro same
      exact List.append_inj same (length_lowerAt ..)
    · rintro ⟨head, further⟩
      rw [head, further]

/-- The lower case of a part, alone, stands at its place in the lower case of the text exactly if
every sigma of it ends a word there as it does alone. -/
theorem lowerWithin_eq_lowercase_iff (pre cs post : List Char) :
    lowerWithin pre.reverse cs post = lowercase cs ↔ SigmasAgree cs pre.reverse post [] [] := by
  rw [lowercase_eq_lowerWithin, lowerWithin_congr_iff]

private theorem nextIsCased_append {far : List Char} (h : nextIsCased far = false)
    (near : List Char) :
    nextIsCased (near ++ far) = nextIsCased near := by
  induction near with
  | nil => exact h
  | cons c near ih =>
    unfold nextIsCased at ih ⊢
    rw [List.cons_append, List.dropWhile_cons, List.dropWhile_cons]
    by_cases ignored : isIgnorable c = true
    · rw [if_pos ignored, if_pos ignored]
      exact ih
    · rw [if_neg ignored, if_neg ignored]

theorem sigmasAgree_of_adjoins_none {before behind : List Char} (head : nextIsCased before = false)
    (tail : nextIsCased behind = false) (cs : List Char) : SigmasAgree cs before behind [] [] := by
  intro u v _
  rw [endsWord, endsWord, nextIsCased_append head, nextIsCased_append tail, List.append_nil,
    List.append_nil]

end PeerPanel.Text
