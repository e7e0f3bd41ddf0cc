import Mathlib.Data.List.Nodup
import PeerPanel.Lifetime

/-!
A lifetime over time: subscriptions are started on it, their sources are given values or end, each
has its turn now and then, and the lifetime ends them all and may be used again.

However this comes together, what runs is held (`Lifetime.Owned`), so nothing is left to run when
the lifetime has ended, and clearing away what has ended lets go of nothing else. Each callback is
told what its source yields when it is followed alone: `Lifetime.Scene.subscriptions_owned`.
-/

set_option autoImplicit false
set_option relaxedAutoImplicit false

namespace PeerPanel

variable {σ α : Type}

/-- What happens to a lifetime. Each event is a step, by whose number is known what it begins. -/
inductive Lifetime.Event (σ α : Type)
  /-- Sources are given values, or end. -/
  | produce (f : σ → σ)
  | start (tag : String) (source : σ)
  /-- The subscription that was begun in a step has its turn, and takes so many values at most. Its
  source answers as it does at that time. -/
  | turn (begun : Nat) (ask : σ → Reply α σ) (most : Nat)
  /-- The lifetime ends its subscriptions, or is dropped. -/
  | destroy

namespace Subscription

open Lifetime (Event)

/-- A source that is followed by itself, at the turns of the subscription that was begun in a step,
is asked for one value after the other. What it yields, and what is left of it unless it ends. -/
inductive Follows (begun : Nat) : σ → List (Event σ α) → List α → Option σ → Prop
  | stays (source : σ) : Follows begun source [] [] (some source)
  | produce {f : σ → σ} {source : σ} {later : List (Event σ α)} {values : List α}
      {left : Option σ} : Follows begun (f source) later values left →
      Follows begun source (.produce f :: later) values left
  | value {ask : σ → Reply α σ} {most : Nat} {source rest : σ} {a : α}
      {later : List (Event σ α)} {values : List α} {left : Option σ} :
      ask source = .value a rest →
      Follows begun rest (.turn begun ask most :: later) values left →
      Follows begun source (.turn begun ask (most + 1) :: later) (a :: values) left
  | pending {ask : σ → Reply α σ} {most : Nat} {source rest : σ} {later : List (Event σ α)}
      {values : List α} {left : Option σ} : ask source = .pending rest →
      Follows begun rest later values left →
      Follows begun source (.turn begun ask (most + 1) :: later) values left
  | ended {ask : σ → Reply α σ} {most : Nat} {source : σ} {later : List (Event σ α)} :
      ask source = .ended → Follows begun source (.turn begun ask (most + 1) :: later) [] none
  /-- The turn is over. -/
  | most {ask : σ → Reply α σ} {source : σ} {later : List (Event σ α)} {values : List α}
      {left : Option σ} : Follows begun source later values left →
      Follows begun source (.turn begun ask 0 :: later) values left
  /-- It is the turn of another one, or something happens to the lifetime. -/
  | other {e : Event σ α} {source : σ} {later : List (Event σ α)} {values : List α}
      {left : Option σ} : (∀ f, e ≠ .produce f) → (∀ ask most, e ≠ .turn begun ask most) →
      Follows begun source later values left → Follows begun source (e :: later) values left

/-- `Follows`, computed. -/
def follow (begun : Nat) (source : σ) : List (Event σ α) → List α × Option σ
  | [] => ([], some source)
  | .produce f :: later => follow begun (f source) later
  | .turn k ask most :: later =>
    if k = begun then
      match takeReady ask most source with
      | (values, some rest) =>
        let (more, left) := follow begun rest later
        (values ++ more, left)
      | (values, none) => (values, none)
    else follow begun source later
  | .start _ _ :: later | .destroy :: later => follow begun source later

private theorem follow_turn (begun : Nat) (source : σ) (ask : σ → Reply α σ) (most : Nat)
    (later : List (Event σ α)) :
    follow begun source (.turn begun ask most :: later) =
      match takeReady ask most source with
      | (values, some rest) =>
        (values ++ (follow begun rest later).1, (follow begun rest later).2)
      | (values, none) => (values, none) := by
  rw [follow, if_pos rfl]

private theorem follows_turn {begun : Nat} {later : List (Event σ α)}
    (ih : ∀ source, Follows begun source later (follow begun source later).1
      (follow begun source later).2) (source : σ) (ask : σ → Reply α σ) (most : Nat) :
    Follows begun source (.turn begun ask most :: later)
      (follow begun source (.turn begun ask most :: later)).1
      (follow begun source (.turn begun ask most :: later)).2 := by
  -- a turn that takes one more value goes on as a shorter turn of what is left of the source
  induction most generalizing source with
  | zero =>
    rw [follow_turn]
    exact .most (ih source)
  | succ most turn =>
    rw [follow_turn, takeReady]
    cases asked : ask source with
    | value a rest =>
      have after := turn rest
      rw [follow_turn] at after
      rcases taken : takeReady ask most rest with ⟨values, _ | left⟩
      · simp only [taken] at after ⊢
        exact .value asked after
      · simp only [taken] at after ⊢
        exact .value asked after
    | pending rest => exact .pending asked (ih rest)
    | ended => exact .ended asked

private theorem follows_follow (begun : Nat) (source : σ) (events : List (Event σ α)) :
    Follows begun source events (follow begun source events).1 (follow begun source events).2 := by
  induction events generalizing source with
  | nil => exact .stays source
  | cons e later ih =>
    cases e with
    | produce f => exact .produce (ih (f source))
    | turn k ask most =>
      by_cases own : k = begun
      · subst own
        exact follows_turn ih source ask most
      · have differs : ∀ ask' most', Event.turn k ask most ≠ .turn begun ask' most' := by
          rintro ask' most' ⟨⟩
          exact own rfl
        rw [follow, if_neg own]
        exact .other (by simp) differs (ih source)
    | start tag later => exact .other (by simp) (by simp) (ih source)
    | destroy => exact .other (by simp) (by simp) (ih source)

end Subscription

namespace Lifetime

def Event.isDestroy : Event σ α → Bool
  | destroy => true
  | _ => false

/-- A lifetime, the number of the next step, and what callbacks were told, with the steps in which
their subscriptions were begun. -/
structure Scene (σ α : Type) where
  lifetime : Lifetime σ := {}
  step : Nat := 0
  told : List (Nat × String × α) := []

namespace Scene

def play (s : Scene σ α) : Event σ α → Scene σ α
  | .produce f => { s with lifetime := s.lifetime.mapSources f, step := s.step + 1 }
  | .start tag source =>
    { s with lifetime := s.lifetime.start tag source s.step, step := s.step + 1 }
  | .turn begun ask most =>
    let (told, lifetime) := s.lifetime.run begun ask most
    { lifetime, step := s.step + 1, told := s.told ++ told.map (begun, ·) }
  | .destroy => { s with lifetime := s.lifetime.destroy, step := s.step + 1 }

def run (s : Scene σ α) (events : List (Event σ α)) : Scene σ α := events.foldl play s

/-- What was told by the subscription that was begun in a step. -/
def heard (s : Scene σ α) (begun : Nat) : List (Nat × String × α) :=
  s.told.filter (·.1 = begun)

end Scene

/-- The subscriptions that events start, each with what happens after it. The number of the first
step is given. -/
def starts (step : Nat) : List (Event σ α) → List (Subscription σ × List (Event σ α))
  | [] => []
  | .start tag source :: later => ({ tag, begun := step, source }, later) :: starts (step + 1) later
  | .produce _ :: later | .turn _ _ _ :: later | .destroy :: later => starts (step + 1) later

end Lifetime

namespace Subscription

open Lifetime (Event)

variable (r : Subscription σ) (later : List (Event σ α))

/-- What the source of a subscription yields until the lifetime ends. -/
def yields : List α := (follow r.begun r.source (later.takeWhile (!·.isDestroy))).1

/-- What is left of the source when the lifetime ends, or at the last event. -/
def rest : Option σ := (follow r.begun r.source (later.takeWhile (!·.isDestroy))).2

/-- What a subscription becomes, unless its source or the lifetime ends. -/
def left : Option (Subscription σ) :=
  if later.any (·.isDestroy) then none else (r.rest later).map fun source => { r with source }

section

variable {r later} (ask : σ → Reply α σ) (most : Nat)

private theorem begun_of_run {rest : Subscription σ} (h : (r.run ask most).2 = some rest) :
    rest.begun = r.begun ∧ rest.tag = r.tag := by
  obtain ⟨source, -, rfl⟩ := Option.map_eq_some_iff.mp h
  exact ⟨rfl, rfl⟩

private theorem yields_turn :
    r.yields (.turn r.begun ask most :: later) =
      (takeReady ask most r.source).1 ++ ((r.run ask most).2.map (·.yields later)).getD [] := by
  unfold yields
  rw [List.takeWhile_cons_of_pos rfl, follow_turn, Subscription.run]
  rcases takeReady ask most r.source with ⟨values, _ | rest⟩
  · simp
  · simp

private theorem yields_turn_of_ne {k : Nat} (other : k ≠ r.begun) :
    r.yields (.turn k ask most :: later) = r.yields later := by
  unfold yields
  rw [List.takeWhile_cons_of_pos rfl, follow, if_neg other]

private theorem left_turn :
    r.left (.turn r.begun ask most :: later) = (r.run ask most).2.bind (·.left later) := by
  unfold left rest Subscription.run
  rw [List.any_cons, List.takeWhile_cons_of_pos rfl, follow_turn]
  rcases takeReady ask most r.source with ⟨values, _ | rest⟩
  · simp
  · rfl

private theorem left_turn_of_ne {k : Nat} (other : k ≠ r.begun) :
    r.left (.turn k ask most :: later) = r.left later := by
  unfold left rest
  rw [List.any_cons, List.takeWhile_cons_of_pos rfl, follow, if_neg other]
  rfl

end

end Subscription

namespace Lifetime

/-- Whatever runs is held, in the order of the steps in which it was begun. -/
structure Owned (l : Lifetime σ) (step : Nat) : Prop where
  held : (l.running.map (·.begun)).Sublist l.held
  ascending : l.held.Pairwise (· < ·)
  past : ∀ k ∈ l.held, k < step

variable {l : Lifetime σ} {step k : Nat} {r : Subscription σ} (ask : σ → Reply α σ) (most : Nat)

theorem runs_iff : l.runs k = true ↔ k ∈ l.running.map (·.begun) := by
  simp [runs]

theorem mem_running_run :
    r ∈ (l.run k ask most).2.running ↔
      (∃ r' ∈ l.running, r'.begun = k ∧ (r'.run ask most).2 = some r) ∨
        (r ∈ l.running ∧ r.begun ≠ k) := by
  simp only [run, List.filterMap_map, List.mem_filterMap, Function.comp_apply]
  constructor
  · rintro ⟨r', mem, turned⟩
    by_cases own : r'.begun = k
    · rw [if_pos own] at turned
      exact .inl ⟨r', mem, own, turned⟩
    · rw [if_neg own] at turned
      cases turned
      exact .inr ⟨mem, own⟩
  · rintro (⟨r', mem, own, turned⟩ | ⟨mem, other⟩)
    · exact ⟨r', mem, by rw [if_pos own, turned]⟩
    · exact ⟨r, mem, by rw [if_neg other]⟩

private theorem filterMap_running_run (l : Lifetime σ) (k : Nat) (later : List (Event σ α)) :
    (l.run k ask most).2.running.filterMap (·.left later) =
      l.running.filterMap (·.left (.turn k ask most :: later)) := by
  simp only [run, List.filterMap_map, List.filterMap_filterMap]
  refine List.filterMap_congr fun r _ => ?_
  by_cases own : r.begun = k
  · subst own
    rw [Subscription.left_turn, Function.comp_apply, if_pos rfl]
  · rw [Subscription.left_turn_of_ne ask most fun same => own same.symm, Function.comp_apply,
      if_neg own]
    rfl

private theorem begun_run_sublist (l : Lifetime σ) (k : Nat) :
    ((l.run k ask most).2.running.map (·.begun)).Sublist (l.running.map (·.begun)) := by
  obtain ⟨held, running⟩ := l
  simp only [run, List.filterMap_map]
  induction running with
  | nil => exact List.Sublist.refl _
  | cons r rest ih =>
    simp only [List.filterMap_cons, Function.comp_apply, List.map_cons]
    split
    · exact ih.cons _
    · next r' turned =>
      have same : r'.begun = r.begun := by
        split at turned
        · exact (Subscription.begun_of_run ask most turned).1
        · cases turned
          rfl
      rw [List.map_cons, same]
      exact ih.cons_cons _

private theorem told_run_of_not_mem (other : k ∉ l.running.map (·.begun)) :
    (l.run k ask most).1 = [] := by
  simp only [run, List.flatMap_map, List.flatMap_eq_nil_iff]
  intro r mem
  have differs : r.begun ≠ k := fun same => other (List.mem_map.mpr ⟨r, mem, same⟩)
  rw [if_neg differs]

private theorem mem_running_of_told {y : String × α} (told : y ∈ (l.run k ask most).1) :
    k ∈ l.running.map (·.begun) := by
  by_contra gone
  rw [told_run_of_not_mem ask most gone] at told
  cases told

namespace Owned

theorem empty (step : Nat) : ({} : Lifetime σ).Owned step :=
  ⟨List.Sublist.refl _, List.Pairwise.nil, by simp⟩

private theorem once (owned : l.Owned step) : (l.running.map (·.begun)).Nodup :=
  owned.held.nodup owned.ascending.nodup

private theorem begun_lt (owned : l.Owned step) (mem : r ∈ l.running) : r.begun < step :=
  owned.past r.begun (owned.held.mem (List.mem_map_of_mem mem))

theorem told_run (owned : l.Owned step) (mem : r ∈ l.running) :
    (l.run r.begun ask most).1 = (r.run ask most).1 := by
  -- those before and behind it were begun in other steps, so they are silent
  obtain ⟨front, back, split⟩ := List.append_of_mem mem
  have once := owned.once
  rw [split, List.map_append, List.map_cons, List.nodup_append] at once
  obtain ⟨-, behind, apart⟩ := once
  have before : r.begun ∉ front.map (·.begun) := fun h => apart _ h _ List.mem_cons_self rfl
  have after : r.begun ∉ back.map (·.begun) := (List.nodup_cons.mp behind).1
  have silent := told_run_of_not_mem (l := ⟨l.held, front⟩) ask most before
  have silent' := told_run_of_not_mem (l := ⟨l.held, back⟩) ask most after
  simp only [run, List.flatMap_map] at silent silent' ⊢
  rw [split, List.flatMap_append, List.flatMap_cons, silent, silent', if_pos rfl, List.nil_append,
    List.append_nil]

theorem gone_run (owned : l.Owned step) (mem : r ∈ l.running) (ended : (r.run ask most).2 = none) :
    r.begun ∉ (l.run r.begun ask most).2.running.map (·.begun) := by
  intro back
  obtain ⟨rest, there, same⟩ := List.mem_map.mp back
  rcases (mem_running_run ask most).mp there with ⟨r', mem', begun, turned⟩ | ⟨-, other⟩
  · obtain rfl : r' = r := List.inj_on_of_nodup_map owned.once mem' mem begun
    rw [ended] at turned
    cases turned
  · exact other same

private theorem mapSources (owned : l.Owned step) (f : σ → σ) :
    (l.mapSources f).Owned (step + 1) where
  held := by
    rw [Lifetime.mapSources, List.map_map]
    exact owned.held
  ascending := owned.ascending
  past k mem := Nat.lt_succ_of_lt (owned.past k mem)

private theorem later (owned : l.Owned step) : l.Owned (step + 1) :=
  { owned with past := fun k mem => Nat.lt_succ_of_lt (owned.past k mem) }

theorem run (owned : l.Owned step) (k : Nat) : (l.run k ask most).2.Owned step where
  held := (begun_run_sublist ask most l k).trans owned.held
  ascending := owned.ascending
  past := owned.past

private theorem source?_begun (owned : l.Owned step) (mem : r ∈ l.running) :
    l.source? r.begun = some r.source := by
  unfold source?
  cases found : l.running.find? (·.begun = r.begun) with
  | none => simpa using List.find?_eq_none.mp found r mem
  | some r' =>
    have same : r'.begun = r.begun := by simpa using List.find?_some found
    obtain rfl := List.inj_on_of_nodup_map owned.once (List.mem_of_find?_eq_some found) mem same
    rfl

theorem turn (owned : l.Owned step) {source rest : σ} {values : List α}
    (runs : l.source? k = some source) (taken : takeReady ask most source = (values, some rest)) :
    (l.run k ask most).1.length = values.length ∧ (l.run k ask most).2.source? k = some rest := by
  obtain ⟨r, found, rfl⟩ := Option.map_eq_some_iff.mp runs
  obtain rfl : r.begun = k := by simpa using List.find?_some found
  have mem := List.mem_of_find?_eq_some found
  have told : r.run ask most = (values.map (r.tag, ·), some { r with source := rest }) := by
    rw [Subscription.run, taken]
    rfl
  constructor
  · rw [owned.told_run ask most mem, told, List.length_map]
  · have there : { r with source := rest } ∈ (l.run r.begun ask most).2.running :=
      (mem_running_run ask most).mpr (.inl ⟨r, mem, rfl, congrArg Prod.snd told⟩)
    exact (owned.run ask most r.begun).source?_begun there

theorem start (owned : l.Owned step) (tag : String) (source : σ) :
    (l.start tag source step).Owned (step + 1) where
  held := by
    have all : (l.running.map (·.begun)).filter l.runs = l.running.map (·.begun) :=
      List.filter_eq_self.mpr fun k mem => runs_iff.mpr mem
    have kept := owned.held.filter l.runs
    rw [all] at kept
    rw [Lifetime.start, List.map_append]
    exact kept.append (List.Sublist.refl _)
  ascending := by
    refine List.pairwise_append.mpr ⟨owned.ascending.filter _, List.pairwise_singleton _ _, ?_⟩
    intro k mem n new
    rw [List.mem_singleton.mp new]
    exact owned.past k (List.mem_filter.mp mem).1
  past := by
    intro k mem
    rcases List.mem_append.mp mem with old | new
    · exact Nat.lt_succ_of_lt (owned.past k (List.mem_filter.mp old).1)
    · rw [List.mem_singleton.mp new]
      exact Nat.lt_succ_self step

/-- Nothing runs after the end. -/
theorem running_destroy (owned : l.Owned step) : l.destroy.running = [] := by
  refine List.filter_eq_nil_iff.mpr fun r mem => ?_
  simpa using owned.held.mem (List.mem_map_of_mem mem)

private theorem destroy (owned : l.Owned step) : l.destroy.Owned (step + 1) where
  held := by
    rw [owned.running_destroy]
    exact List.Sublist.refl _
  ascending := List.Pairwise.nil
  past := by simp [Lifetime.destroy]

private theorem active_eq (owned : l.Owned step) : l.active = l.running.length := by
  have same : (l.held.filter l.runs).Perm (l.running.map (·.begun)) := by
    refine (List.perm_ext_iff_of_nodup (owned.ascending.nodup.filter _) owned.once).mpr fun k => ?_
    rw [List.mem_filter, runs_iff]
    exact and_iff_right_of_imp fun mem => owned.held.mem mem
  rw [active, List.countP_eq_length_filter, same.length_eq, List.length_map]

end Owned

namespace Scene

/-- What runs is held, and what was told is from earlier steps. -/
structure Sound (s : Scene σ α) : Prop where
  owned : s.lifetime.Owned s.step
  past : ∀ x ∈ s.told, x.1 < s.step

variable {s : Scene σ α} {e : Event σ α}

private theorem run_cons (s : Scene σ α) (e : Event σ α) (later : List (Event σ α)) :
    s.run (e :: later) = (s.play e).run later := rfl

private theorem run_append (s : Scene σ α) (front back : List (Event σ α)) :
    s.run (front ++ back) = (s.run front).run back :=
  List.foldl_append

private theorem step_play (s : Scene σ α) (e : Event σ α) : (s.play e).step = s.step + 1 := by
  cases e <;> rfl

private theorem step_run (s : Scene σ α) (events : List (Event σ α)) :
    (s.run events).step = s.step + events.length := by
  induction events generalizing s with
  | nil => rfl
  | cons e later ih =>
    rw [run_cons, ih, step_play, List.length_cons]
    omega

private theorem told_play_turn (s : Scene σ α) (k : Nat) :
    (s.play (.turn k ask most)).told = s.told ++ (s.lifetime.run k ask most).1.map (k, ·) := rfl

private theorem sound_empty : ({} : Scene σ α).Sound where
  owned := .empty 0
  past := by simp

namespace Sound

private theorem play (sound : s.Sound) (e : Event σ α) : (s.play e).Sound := by
  have earlier : ∀ x ∈ s.told, x.1 < s.step + 1 := fun x mem => Nat.lt_succ_of_lt (sound.past x mem)
  cases e with
  | produce f => exact ⟨sound.owned.mapSources f, earlier⟩
  | start tag source => exact ⟨sound.owned.start tag source, earlier⟩
  | turn k ask most =>
    refine ⟨(sound.owned.run ask most k).later, fun x mem => ?_⟩
    rw [told_play_turn] at mem
    rcases List.mem_append.mp mem with old | new
    · exact earlier x old
    · obtain ⟨y, told, rfl⟩ := List.mem_map.mp new
      obtain ⟨r, there, rfl⟩ := List.mem_map.mp (mem_running_of_told ask most told)
      exact Nat.lt_succ_of_lt (sound.owned.begun_lt there)
  | destroy => exact ⟨sound.owned.destroy, earlier⟩

private theorem run (sound : s.Sound) (events : List (Event σ α)) : (s.run events).Sound := by
  induction events generalizing s with
  | nil => exact sound
  | cons e later ih => exact ih (sound.play e)

end Sound

private theorem running_run (sound : s.Sound) (events : List (Event σ α)) :
    (s.run events).lifetime.running =
      s.lifetime.running.filterMap (·.left events) ++
        (starts s.step events).filterMap fun b => b.1.left b.2 := by
  induction events generalizing s with
  | nil =>
    have kept : (fun r : Subscription σ => r.left ([] : List (Event σ α))) = some := rfl
    rw [kept, List.filterMap_some, starts, List.filterMap_nil, List.append_nil]
    rfl
  | cons e later ih =>
    rw [run_cons, ih (sound.play e), step_play]
    cases e with
    | produce f =>
      rw [starts, play, Lifetime.mapSources, List.filterMap_map]
      rfl
    | start tag source =>
      have first : starts s.step (.start tag source :: later) =
          [({ tag, begun := s.step, source }, later)] ++ starts (s.step + 1) later := rfl
      rw [first, play, Lifetime.start, List.filterMap_append, List.filterMap_append,
        List.append_assoc]
      rfl
    | turn k ask most =>
      rw [starts, play, Lifetime.filterMap_running_run]
    | destroy =>
      have ended : (s.play .destroy).lifetime.running = [] := sound.owned.running_destroy
      have none : s.lifetime.running.filterMap (·.left (.destroy :: later)) = [] :=
        List.filterMap_eq_nil_iff.mpr fun _ _ => rfl
      rw [ended, none]
      rfl

private theorem heard_play_turn_of_ne {j k : Nat} (other : j ≠ k) (s : Scene σ α) :
    (s.play (.turn j ask most)).heard k = s.heard k := by
  rw [heard, told_play_turn, List.filter_append, List.filter_map]
  simp [heard, Function.comp_def, other]

private theorem heard_play_turn {k : Nat} (s : Scene σ α) :
    (s.play (.turn k ask most)).heard k =
      s.heard k ++ (s.lifetime.run k ask most).1.map (k, ·) := by
  rw [heard, told_play_turn, List.filter_append, List.filter_map]
  simp [heard, Function.comp_def]

private theorem gone_play {k : Nat} (gone : k ∉ s.lifetime.running.map (·.begun))
    (past : k < s.step) (e : Event σ α) :
    k ∉ (s.play e).lifetime.running.map (·.begun) ∧ (s.play e).heard k = s.heard k := by
  cases e with
  | produce f =>
    refine ⟨?_, rfl⟩
    rwa [play, mapSources, List.map_map]
  | start tag source =>
    refine ⟨?_, rfl⟩
    rw [play, Lifetime.start, List.map_append, List.mem_append, not_or]
    exact ⟨gone, by simpa using Nat.ne_of_lt past⟩
  | turn j ask most =>
    refine ⟨fun back => gone ((begun_run_sublist ask most s.lifetime j).mem back), ?_⟩
    by_cases own : j = k
    · subst own
      rw [heard_play_turn, told_run_of_not_mem ask most gone, List.map_nil, List.append_nil]
    · exact heard_play_turn_of_ne ask most own s
  | destroy =>
    refine ⟨fun back => gone ?_, rfl⟩
    exact (List.filter_sublist.map _).mem back

private theorem heard_run_of_gone {k : Nat} (gone : k ∉ s.lifetime.running.map (·.begun))
    (past : k < s.step) (events : List (Event σ α)) : (s.run events).heard k = s.heard k := by
  induction events generalizing s with
  | nil => rfl
  | cons e later ih =>
    obtain ⟨still, same⟩ := gone_play gone past e
    rw [run_cons, ih still (by rw [step_play]; exact Nat.lt_succ_of_lt past), same]

/-- The callback of a subscription that runs is told what its source yields until the lifetime
ends. -/
private theorem heard_run_of_running (sound : s.Sound) {r : Subscription σ}
    (mem : r ∈ s.lifetime.running) (events : List (Event σ α)) :
    (s.run events).heard r.begun =
      s.heard r.begun ++ (r.yields events).map fun v => (r.begun, r.tag, v) := by
  induction events generalizing s r with
  | nil => exact (List.append_nil _).symm
  | cons e later ih =>
    rw [run_cons]
    have next := sound.play e
    cases e with
    | produce f => exact ih next (r := { r with source := f r.source }) (List.mem_map_of_mem mem)
    | start tag source => exact ih next (List.mem_append_left _ mem)
    | turn k ask most =>
      by_cases own : k = r.begun
      · -- its own turn: what it tells now, and then what it yields after that if it runs on
        subst own
        have told := sound.owned.told_run ask most mem
        rw [Subscription.yields_turn, List.map_append, ← List.append_assoc]
        have now : (s.play (.turn r.begun ask most)).heard r.begun = s.heard r.begun ++
            (takeReady ask most r.source).1.map fun v => (r.begun, r.tag, v) := by
          rw [heard_play_turn, told, Subscription.run, List.map_map]
          rfl
        rw [← now]
        cases turned : (r.run ask most).2 with
        | none =>
          have past := Nat.lt_succ_of_lt (sound.owned.begun_lt mem)
          rw [heard_run_of_gone (sound.owned.gone_run ask most mem turned) past]
          exact (List.append_nil _).symm
        | some rest =>
          obtain ⟨begun, tag⟩ := Subscription.begun_of_run ask most turned
          have there : rest ∈ (s.play (.turn r.begun ask most)).lifetime.running :=
            (mem_running_run ask most).mpr (.inl ⟨r, mem, rfl, turned⟩)
          have heard := ih next there
          rwa [begun, tag] at heard
      · rw [Subscription.yields_turn_of_ne ask most own, ← heard_play_turn_of_ne ask most own s]
        have there : r ∈ (s.play (.turn k ask most)).lifetime.running :=
          (mem_running_run ask most).mpr (.inr ⟨mem, fun same => own same.symm⟩)
        exact ih next there
    | destroy =>
      have gone : r.begun ∉ (s.play .destroy).lifetime.running.map (·.begun) := by
        rw [play, sound.owned.running_destroy]
        simp
      have past : r.begun < (s.play .destroy).step := Nat.lt_succ_of_lt (sound.owned.begun_lt mem)
      rw [heard_run_of_gone gone past]
      exact (List.append_nil _).symm

private theorem heard_run_of_mem_starts (sound : s.Sound) {events : List (Event σ α)}
    {b : Subscription σ × List (Event σ α)} (mem : b ∈ starts s.step events) :
    (s.run events).heard b.1.begun =
      (b.1.yields b.2).map fun v => (b.1.begun, b.1.tag, v) := by
  induction events generalizing s with
  | nil => cases mem
  | cons e later ih =>
    rw [run_cons]
    have next := sound.play e
    have rest (mem : b ∈ starts (s.step + 1) later) :
        ((s.play e).run later).heard b.1.begun = (b.1.yields b.2).map fun v =>
          (b.1.begun, b.1.tag, v) :=
      ih next (by rwa [step_play])
    cases e with
    | start tag source =>
      rcases List.mem_cons.mp mem with rfl | mem
      · have there : { tag, begun := s.step, source } ∈
            (s.play (.start tag source)).lifetime.running :=
          List.mem_append_right _ (List.mem_singleton_self _)
        have fresh : (s.play (.start tag source)).heard s.step = [] :=
          List.filter_eq_nil_iff.mpr fun x old => by
            simpa using Nat.ne_of_lt (sound.past x old)
        have heard := heard_run_of_running next there later
        rwa [fresh, List.nil_append] at heard
      · exact rest mem
    | _ => exact rest mem

private theorem mem_told_run {events : List (Event σ α)} {x : Nat × String × α}
    (mem : x ∈ (s.run events).told) :
    x ∈ s.told ∨ x.1 ∈ s.lifetime.running.map (·.begun) ∨
      x.1 ∈ (starts s.step events).map (·.1.begun) := by
  induction events generalizing s with
  | nil => exact .inl mem
  | cons e later ih =>
    have after := ih mem
    rw [step_play] at after
    cases e with
    | produce f =>
      rwa [play, mapSources, List.map_map] at after
    | start tag source =>
      rw [play, Lifetime.start, List.map_append, List.mem_append] at after
      rw [starts, List.map_cons, List.mem_cons]
      simpa [or_assoc] using after
    | turn k ask most =>
      rw [told_play_turn, List.mem_append] at after
      rcases after with (old | new) | runs | begun
      · exact .inl old
      · obtain ⟨y, told, rfl⟩ := List.mem_map.mp new
        exact .inr (.inl (mem_running_of_told ask most told))
      · exact .inr (.inl ((begun_run_sublist ask most s.lifetime k).mem runs))
      · exact .inr (.inr begun)
    | destroy =>
      refine after.imp_right (Or.imp_left fun runs => ?_)
      exact (List.filter_sublist.map _).mem runs

private theorem begun_lt_of_mem_starts {step : Nat} {events : List (Event σ α)}
    {b : Subscription σ × List (Event σ α)} (mem : b ∈ starts step events) :
    b.1.begun < step + events.length := by
  induction events generalizing step with
  | nil => cases mem
  | cons e later ih =>
    rw [List.length_cons]
    have rest (mem : b ∈ starts (step + 1) later) : b.1.begun < step + (later.length + 1) := by
      have := ih mem
      omega
    cases e with
    | start tag source =>
      rcases List.mem_cons.mp mem with rfl | mem
      · exact Nat.lt_add_of_pos_right (Nat.succ_pos _)
      · exact rest mem
    | _ => exact rest mem

/-- The callback of each subscription is told what its source yields by itself until the lifetime
ends, in the order in which it is yielded, and nothing after that. The subscriptions that are active
are those started since the lifetime has last ended whose sources have not ended, and they are held
until it ends again. -/
theorem subscriptions_owned (events : List (Event σ α)) :
    let s : Scene σ α := run {} events
    (∀ b ∈ starts 0 events,
      Subscription.Follows b.1.begun b.1.source (b.2.takeWhile (!·.isDestroy)) (b.1.yields b.2)
        (b.1.rest b.2) ∧
      s.heard b.1.begun = (b.1.yields b.2).map fun v => (b.1.begun, b.1.tag, v)) ∧
    (∀ x ∈ s.told, x.1 ∈ (starts 0 events).map (·.1.begun)) ∧
    (∀ front back, events = front ++ .destroy :: back →
      ∀ b ∈ starts 0 front, s.heard b.1.begun = (run {} front).heard b.1.begun) ∧
    s.lifetime.active = (starts 0 events).countP (fun b =>
      !b.2.any (·.isDestroy) && (b.1.rest b.2).isSome) ∧
    s.lifetime.running = (starts 0 events).filterMap (fun b => b.1.left b.2) ∧
    ∀ r ∈ s.lifetime.running, r.begun ∈ s.lifetime.held := by
  intro s
  have start : ({} : Scene σ α).Sound := sound_empty
  have sound : s.Sound := start.run events
  have running : s.lifetime.running = (starts 0 events).filterMap fun b => b.1.left b.2 :=
    running_run start events
  refine ⟨fun b mem => ⟨Subscription.follows_follow _ _ _, heard_run_of_mem_starts start mem⟩,
    fun x mem => ?_, ?_, ?_, running,
    fun r mem => sound.owned.held.mem (List.mem_map_of_mem mem)⟩
  · rcases mem_told_run mem with old | runs | begun
    · cases old
    · cases runs
    · exact begun
  · intro front back split b mem
    have before := start.run front
    have ended : b.1.begun ∉ (((run {} front).play .destroy).lifetime.running.map (·.begun)) := by
      rw [play, before.owned.running_destroy]
      exact List.not_mem_nil
    have past : b.1.begun < ((run {} front).play (.destroy : Event σ α)).step := by
      have earlier := begun_lt_of_mem_starts mem
      rw [step_play, step_run]
      exact Nat.lt_succ_of_lt earlier
    have silent := heard_run_of_gone ended past back
    rwa [← run_cons, ← run_append, ← split] at silent
  · rw [sound.owned.active_eq, running, List.length_filterMap_eq_countP]
    refine List.countP_congr fun b _ => ?_
    unfold Subscription.left
    cases b.2.any (·.isDestroy) <;> simp

/-- Ask for the first of the letters that have come, when more may come or none. -/
def askForLetter : List Char × Bool → Reply Char (List Char × Bool)
  | (c :: rest, more) => .value c (rest, more)
  | ([], true) => .pending ([], true)
  | ([], false) => .ended

/-- Three subscriptions to letters. The second one has ended when the third is started, and a letter
has come for the first and the third one when the lifetime ends. -/
def letterEvents : List (Event (List Char × Bool) Char) :=
  [.start "a" (['x'], true), .start "b" (['y'], false), .turn 0 askForLetter 9,
    .turn 1 askForLetter 9, .start "c" ([], true), .produce fun s => (s.1 ++ ['z'], s.2),
    .turn 0 askForLetter 9, .destroy, .turn 4 askForLetter 9, .start "d" ([], true)]

/-- The letter is told to the first one, whose turn it is before the end, and not to the third. -/
theorem letter_told_before_the_end :
    (run {} letterEvents).heard 0 = [(0, "a", 'x'), (0, "a", 'z')] ∧
      (run {} letterEvents).heard 4 = [] ∧ (run {} letterEvents).lifetime.active = 1 := by
  obtain ⟨heard, -, -, active, -⟩ := subscriptions_owned letterEvents
  have first := (heard _ List.mem_cons_self).2
  have third := (heard _ (List.mem_cons_of_mem _ (List.mem_cons_of_mem _ List.mem_cons_self))).2
  exact ⟨first, third, active⟩

end Scene

end Lifetime

end PeerPanel
