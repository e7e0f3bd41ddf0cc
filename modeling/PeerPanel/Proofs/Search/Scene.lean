import PeerPanel.Proofs.Account.History
import PeerPanel.Proofs.Search.Automaton

/-!
A search over time, in an account that changes.

A search remembers the hits of a query from the moment at which it has searched for it until an
empty text is applied. Changes of the account do not touch what is remembered. So whatever a search
remembers of a query with a text is what the query had found when it was last searched
(`Scene.exists_searchedLast`), and the applied query is remembered always
(`Scene.Sound.remembered`).
-/

set_option autoImplicit false
set_option relaxedAutoImplicit false

namespace PeerPanel.Search

/-- A search, the account that it reads and the present moment. -/
structure Scene where
  account : Account
  search : Debounce
  now : Moment

/-- What happens to a search and its account. -/
inductive Scene.Move
  | change (c : Account.Change)
  | request (q : Query)
  | applyNow (q : Query)
  | wait (ms : Nat)

namespace Scene

def searchAfter (s : Scene) : Move → Debounce
  | .change _ => s.search
  | .request q => s.search.request s.account s.now q
  | .applyNow q => s.search.applyNow s.account q
  | .wait ms => s.search.reach s.account (s.now.time + ms)

def accountAfter (s : Scene) : Move → Account
  | .change c => s.account.apply c
  | _ => s.account

def Move.duration : Move → Nat
  | wait ms => ms
  | _ => 0

def play (s : Scene) (m : Move) : Scene :=
  { account := s.accountAfter m, search := s.searchAfter m, now := s.now.next m.duration }

def run (s : Scene) (moves : List Move) : Scene := moves.foldl play s

private theorem run_append_singleton (s : Scene) (moves : List Move) (m : Move) :
    s.run (moves ++ [m]) = (s.run moves).play m := by
  simp only [run, List.foldl_append, List.foldl_cons, List.foldl_nil]

def hits? (s : Scene) (q : Query) : Option Hits := s.search.finder.hits? q

/-- A search with at most one alarm that remembers what it has applied. -/
structure Sound (s : Scene) : Prop where
  held : ∃ pending, s.search.Holds pending
  remembered : (s.hits? s.search.applied).isSome = true

variable {s : Scene}

private theorem play_cases (s : Scene) (m : Move) :
    (s.play m).search = s.search ∨
      (s.play m).account = s.account ∧ ∃ e, (∀ saved, e ≠ .restore saved) ∧
        (s.play m).search = s.search.play s.now s.account e := by
  cases m with
  | change c => exact .inl rfl
  | request q => exact .inr ⟨rfl, .request q, by simp, rfl⟩
  | applyNow q => exact .inr ⟨rfl, .applyNow q, by simp, rfl⟩
  | wait ms => exact .inr ⟨rfl, .wait ms, by simp, rfl⟩

private theorem finder_play (held : ∃ pending, s.search.Holds pending) (m : Move) :
    (s.play m).search.finder = s.search.finder ∨
      (s.play m).account = s.account ∧
        ∃ q, (s.play m).search.finder = s.search.finder.apply s.account q := by
  obtain ⟨pending, held⟩ := held
  rcases s.play_cases m with same | ⟨account, e, other, plays⟩
  · exact .inl (congrArg Debounce.finder same)
  · rw [plays]
    cases held.played s.now s.account e with
    | stays finder text => exact .inl finder
    | applies q other finder text => exact .inr ⟨account, q, finder⟩
    | restores saved finder text => exact absurd rfl (other saved)

private theorem Sound.play (sound : s.Sound) (m : Move) : (s.play m).Sound where
  held := by
    obtain ⟨pending, held⟩ := sound.held
    rcases s.play_cases m with same | ⟨-, e, -, plays⟩
    · rw [same]
      exact ⟨pending, held⟩
    · rw [plays]
      exact held.play s.now s.account e
  remembered := by
    unfold hits? Debounce.applied
    rcases finder_play sound.held m with same | ⟨-, q, applies⟩
    · rw [same]
      exact sound.remembered
    · rw [applies]
      exact Finder.hits?_applied_apply

theorem Sound.run (sound : s.Sound) (moves : List Move) : (s.run moves).Sound := by
  induction moves generalizing s with
  | nil => exact sound
  | cons m later ih => exact ih (sound.play m)

private theorem hits?_of_play (sound : s.Sound) {q : Query} (typed : q.text ≠ "") {m : Move}
    {h : Hits} (known : (s.play m).hits? q = some h) :
    s.hits? q = some h ∨
      (s.hits? q = none ∧ h = Search.run s.account q ∧ (s.play m).account = s.account) := by
  unfold hits? at known ⊢
  rcases finder_play sound.held m with same | ⟨unchanged, r, applies⟩
  · rw [same] at known
    exact .inl known
  · rw [applies] at known
    refine (Finder.hits?_apply_cases known).imp_right fun ⟨same, found, unknown⟩ => ?_
    subst same
    exact ⟨unknown typed, found, unchanged⟩

/-- A query was searched for at the end of the first moves, which have just made it known, and is
remembered since with what it had found then. -/
structure SearchedLast (s : Scene) (q : Query) (front back : List Move) : Prop where
  searched : front = [] ∨
    ∃ earlier m, front = earlier ++ [m] ∧ (s.run earlier).hits? q = none
  remembered : ∀ mid, mid <+: back →
    (s.run (front ++ mid)).hits? q = some (Search.run (s.run front).account q)

/-- What is remembered of a query is what it had found when it was last searched. -/
theorem exists_searchedLast (sound : s.Sound) {q : Query} (typed : q.text ≠ "")
    (started : ∀ h, s.hits? q = some h → h = Search.run s.account q) (moves : List Move) {h : Hits}
    (known : (s.run moves).hits? q = some h) :
    ∃ front back, moves = front ++ back ∧ s.SearchedLast q front back := by
  induction moves using List.reverseRecOn generalizing h with
  | nil =>
    refine ⟨[], [], rfl, .inl rfl, fun mid hmid => ?_⟩
    rw [List.prefix_nil.mp hmid]
    rw [started h known] at known
    exact known
  | append_singleton moves m ih =>
    rw [run_append_singleton] at known
    rcases hits?_of_play (sound.run moves) typed known with kept | ⟨unknown, found, same⟩
    · obtain ⟨front, back, rfl, last⟩ := ih kept
      refine ⟨front, back ++ [m], by rw [List.append_assoc], last.searched, fun mid hmid => ?_⟩
      rcases List.prefix_concat_iff.mp hmid with rfl | within
      · have now := last.remembered back (List.prefix_refl back)
        rw [kept] at now
        rw [← List.append_assoc, run_append_singleton, known, now]
      · exact last.remembered mid within
    · refine ⟨moves ++ [m], [], by simp, .inr ⟨moves, m, rfl, unknown⟩, fun mid hmid => ?_⟩
      rw [List.prefix_nil.mp hmid, List.append_nil, run_append_singleton, same, known, found]

end Scene

end PeerPanel.Search
