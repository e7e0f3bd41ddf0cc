import Mathlib.Data.List.Basic
import PeerPanel.FileTree

/-!
Paths of a tree that grows.

A path leads to a directory by way of directories (`FileTree.leadsTo_iff`), so where it leads to
does not change while directories stay (`FileTree.Within`). Making directories puts them where
nothing was before (`FileTree.AddsDirectories`), and a file is never written in the place of one.
-/

set_option autoImplicit false
set_option relaxedAutoImplicit false

namespace PeerPanel.FileTree

/-- Go down a path, all of whose parts are directories. -/
def walk (t : FileTree) (p : Path) : Except Obstacle Place := p.foldlM t.enter []

/-- A path leads to a directory that is there. -/
def LeadsTo (t : FileTree) (p : Path) (l : Place) : Prop :=
  t.locate p = .ok l ∧ t.get? l = some .directory

/-- What is there in one tree is there in another one, and its directories are directories. -/
def Within (t u : FileTree) : Prop :=
  ∀ l, ((t.get? l).isSome → (u.get? l).isSome) ∧
    (t.get? l = some .directory → u.get? l = some .directory)

/-- One tree is another one with more directories. -/
def AddsDirectories (t u : FileTree) : Prop :=
  ∀ l, u.get? l = t.get? l ∨ (t.get? l = none ∧ u.get? l = some .directory)

variable {t u v : FileTree} {p q : Path} {l m : Place} {part : String}

@[simp] theorem get?_put (t : FileTree) (l m : Place) (n : FileNode) :
    (t.put l n).get? m = if m = l then some n else t.get? m :=
  Table.get?_insert ..

private theorem AddsDirectories.refl (t : FileTree) : t.AddsDirectories t := fun _ => .inl rfl

private theorem AddsDirectories.trans (h : t.AddsDirectories u) (further : u.AddsDirectories v) :
    t.AddsDirectories v := by
  intro l
  rcases further l with same | ⟨none, made⟩
  · rw [same]
    exact h l
  · rcases h l with same | ⟨-, before⟩
    · exact .inr ⟨same ▸ none, made⟩
    · rw [before] at none
      cases none

theorem AddsDirectories.within (h : t.AddsDirectories u) : t.Within u := by
  intro l
  rcases h l with same | ⟨none, -⟩
  · rw [same]
    exact ⟨id, id⟩
  · rw [none]
    exact ⟨nofun, nofun⟩

theorem within_put_file (t : FileTree) (content : FileContent)
    (free : t.get? l ≠ some .directory) : t.Within (t.put l (.file content)) := by
  intro m
  rw [get?_put]
  by_cases here : m = l
  · rw [here, if_pos rfl]
    exact ⟨fun _ => rfl, fun directory => absurd directory free⟩
  · rw [if_neg here]
    exact ⟨id, id⟩

private theorem enter_eq_ok_iff :
    t.enter l part = .ok m ↔
      (Path.isIdle part = true ∧ l = m) ∨
        (Path.isIdle part = false ∧ part = ".." ∧ l.dropLast = m) ∨
        (Path.isIdle part = false ∧ part ≠ ".." ∧ isName part = true ∧
          t.get? (l ++ [part]) = some .directory ∧ l ++ [part] = m) := by
  unfold enter
  cases idle : Path.isIdle part with
  | true => simp
  | false =>
    by_cases back : part = ".."
    · simp [back]
    · cases name : isName part with
      | false => simp [back]
      | true => rcases t.get? (l ++ [part]) with _ | _ | content <;> simp [back]

private theorem Within.enter (h : t.Within u) (enters : t.enter l part = .ok m) :
    u.enter l part = .ok m := by
  rw [enter_eq_ok_iff] at enters ⊢
  refine enters.imp_right (Or.imp_right ?_)
  rintro ⟨proper, down, name, directory, place⟩
  exact ⟨proper, down, name, (h _).2 directory, place⟩

private theorem walk_append (t : FileTree) (p q : Path) :
    t.walk (p ++ q) = t.walk p >>= fun l => q.foldlM t.enter l :=
  List.foldlM_append

private theorem Within.foldlM_enter (h : t.Within u) (enters : p.foldlM t.enter l = .ok m) :
    p.foldlM u.enter l = .ok m := by
  induction p generalizing l with
  | nil => exact enters
  | cons part rest ih =>
    rw [List.foldlM_cons] at enters ⊢
    cases first : t.enter l part with
    | error e => rw [first] at enters; cases enters
    | ok k =>
      rw [first] at enters
      rw [h.enter first]
      exact ih enters

private theorem walk_append_of_idle (idle : ∀ part ∈ q, Path.isIdle part = true) :
    t.walk (p ++ q) = t.walk p := by
  have stays (l : Place) : q.foldlM t.enter l = .ok l := by
    induction q with
    | nil => rfl
    | cons part rest ih =>
      have first : t.enter l part = .ok l :=
        enter_eq_ok_iff.mpr (.inl ⟨idle part List.mem_cons_self, rfl⟩)
      rw [List.foldlM_cons, first]
      exact ih fun x mem => idle x (List.mem_cons_of_mem part mem)
  rw [walk_append]
  cases t.walk p with
  | error e => rfl
  | ok l => exact stays l

private theorem locate_append_singleton (t : FileTree) (outer : Path) (part : String) :
    t.locate (outer ++ [part]) =
      if Path.isSound (outer ++ [part]) then
        if (t.get? []).isSome then do
          let k ← t.walk outer
          if Path.isIdle part || part = ".." then t.enter k part
          else if isName part then .ok (k ++ [part])
          else .error .barred
        else .error .missing
      else .error .barred := by
  unfold locate walk
  cases Path.isSound (outer ++ [part]) with
  | false => rfl
  | true =>
    cases root : t.get? [] with
    | none => simp [bind, Except.bind, throw, throwThe, MonadExceptOf.throw]
    | some n =>
      simp [bind, Except.bind, pure, Except.pure, throw, throwThe, MonadExceptOf.throw]

theorem isSound_of_locate_eq_ok (located : t.locate p = .ok l) : p.isSound = true := by
  cases sound : p.isSound with
  | true => rfl
  | false =>
    simp [FileTree.locate, sound, bind, Except.bind, throw, throwThe,
      MonadExceptOf.throw] at located

/-- Where a path leads to does not change as a tree grows. -/
private theorem Within.locate (h : t.Within u) (located : t.locate p = .ok l) :
    u.locate p = .ok l := by
  rcases List.eq_nil_or_concat' p with rfl | ⟨outer, part, rfl⟩
  · exact located
  · rw [locate_append_singleton] at located ⊢
    split at located
    · next sound =>
      split at located
      · next root =>
        rw [if_pos sound, if_pos ((h []).1 root)]
        cases walks : t.walk outer with
        | error e => rw [walks] at located; cases located
        | ok k =>
          rw [walks] at located
          have same : u.walk outer = .ok k := h.foldlM_enter walks
          rw [same]
          simp only [bind, Except.bind] at located ⊢
          split at located
          · next special =>
            rw [if_pos special]
            exact h.enter located
          · next proper =>
            rw [if_neg proper]
            exact located
      · cases located
    · cases located

theorem LeadsTo.mono (h : t.LeadsTo p l) (grows : t.Within u) : u.LeadsTo p l :=
  ⟨grows.locate h.1, (grows l).2 h.2⟩

theorem leadsTo_iff :
    t.LeadsTo p l ↔ p.isSound = true ∧ (t.get? []).isSome = true ∧ t.walk p = .ok l ∧
      t.get? l = some .directory := by
  unfold LeadsTo
  -- only the last part of a path is located without being entered
  rcases List.eq_nil_or_concat' p with rfl | ⟨outer, part, rfl⟩
  · have sound : Path.isSound [] = true := by decide
    have here : t.locate [] = .ok [] ∧ t.walk [] = .ok [] := ⟨rfl, rfl⟩
    rw [here.1, here.2]
    constructor
    · rintro ⟨⟨⟩, directory⟩
      exact ⟨sound, by rw [directory]; rfl, rfl, directory⟩
    · rintro ⟨-, -, ⟨⟩, directory⟩
      exact ⟨rfl, directory⟩
  · rw [locate_append_singleton, walk_append]
    cases Path.isSound (outer ++ [part]) with
    | false => simp
    | true =>
      cases (t.get? []).isSome with
      | false => simp
      | true =>
        cases t.walk outer with
        | error e => simp [bind, Except.bind]
        | ok k =>
          have last : [part].foldlM t.enter k = t.enter k part := by simp
          simp only [bind, Except.bind, last, if_true, true_and]
          by_cases special : (Path.isIdle part || part = "..") = true
          · rw [if_pos special]
          · -- the last part is a name, and the directory that it names is there
            obtain ⟨proper, down⟩ : Path.isIdle part = false ∧ part ≠ ".." := by
              simpa using special
            rw [if_neg special, enter_eq_ok_iff]
            constructor
            · rintro ⟨named, directory⟩
              split at named
              · next name =>
                cases named
                exact ⟨.inr (.inr ⟨proper, down, name, directory, rfl⟩), directory⟩
              · cases named
            · rintro ⟨⟨idle, -⟩ | ⟨-, back, -⟩ | ⟨-, -, name, -, rfl⟩, directory⟩
              · rw [proper] at idle
                cases idle
              · exact absurd back down
              · exact ⟨if_pos name, directory⟩

theorem LeadsTo.locate_join (h : t.LeadsTo p l) (sound : (p.join [part]).isSound = true)
    (proper : Path.isIdle part = false) (down : part ≠ "..") (name : isName part = true) :
    t.locate (p.join [part]) = .ok (l ++ [part]) := by
  obtain ⟨-, root, walks, -⟩ := leadsTo_iff.mp h
  have same : t.walk (if p.getLast? = some "" then p.dropLast else p) = .ok l := by
    split
    · next slash =>
      have parts : p.dropLast ++ [""] = p := List.dropLast_append_getLast? "" slash
      rwa [← parts, walk_append_of_idle (by decide)] at walks
    · exact walks
  rw [Path.join] at sound ⊢
  rw [locate_append_singleton, if_pos sound, if_pos root, same]
  simp [bind, Except.bind, proper, down, name]

private theorem addsDirectories_put (free : t.get? l = none) :
    t.AddsDirectories (t.put l .directory) := by
  intro m
  rw [get?_put]
  by_cases here : m = l
  · rw [here, if_pos rfl]
    exact .inr ⟨free, rfl⟩
  · rw [if_neg here]
    exact .inl rfl

private theorem LeadsTo.of_trimmed (h : t.LeadsTo (p.reverse.dropWhile (· = "")).reverse l)
    (sound : p.isSound = true) : t.LeadsTo p l := by
  obtain ⟨-, root, walks, directory⟩ := leadsTo_iff.mp h
  have parts : (p.reverse.dropWhile (· = "")).reverse ++ (p.reverse.takeWhile (· = "")).reverse =
      p := by
    rw [← List.reverse_append, List.takeWhile_append_dropWhile, List.reverse_reverse]
  refine leadsTo_iff.mpr ⟨sound, root, ?_, directory⟩
  rw [← parts, walk_append_of_idle, walks]
  intro part mem
  have slash := List.all_eq_true.mp List.all_takeWhile part (List.mem_reverse.mp mem)
  rw [decide_eq_true_eq] at slash
  rw [slash]
  rfl

private theorem makeDirectory_eq_ok (made : t.makeDirectory p = .ok u) :
    t.AddsDirectories u ∧ ∃ l, u.LeadsTo p l := by
  cases sound : p.isSound with
  | false =>
    simp [makeDirectory, sound, bind, Except.bind, throw, throwThe, MonadExceptOf.throw] at made
  | true =>
    cases located : t.locate (p.reverse.dropWhile (· = "")).reverse with
    | error e => simp [makeDirectory, sound, located, bind, Except.bind] at made
    | ok l =>
      simp only [makeDirectory, sound, located, bind, Except.bind, pure, Except.pure, Bool.not_true,
        Bool.false_eq_true, if_false] at made
      rcases there : t.get? l with _ | _ | content
      · rw [there] at made
        cases made
        have grows := addsDirectories_put there
        have directory : (t.put l .directory).get? l = some .directory := by
          rw [get?_put, if_pos rfl]
        have leads : (t.put l .directory).LeadsTo _ l := ⟨grows.within.locate located, directory⟩
        exact ⟨grows, l, leads.of_trimmed sound⟩
      · rw [there] at made
        cases made
        have leads : t.LeadsTo _ l := ⟨located, there⟩
        exact ⟨.refl t, l, leads.of_trimmed sound⟩
      · rw [there] at made
        cases made

theorem addsDirectories_makeFirst (t : FileTree) (paths : List Path) :
    t.AddsDirectories (t.makeFirst paths).2 := by
  induction paths generalizing t with
  | nil => exact .refl t
  | cons p outer ih =>
    rw [makeFirst]
    rcases made : t.makeDirectory p with (_ | _) | u
    · -- what it lies in has to be made first
      have around := ih t
      rcases made : t.makeFirst outer with ⟨_ | _, u⟩
      · rwa [made] at around
      · rw [made] at around
        dsimp only
        cases again : u.makeDirectory p with
        | error e => exact around
        | ok v => exact around.trans (makeDirectory_eq_ok again).1
    · exact .refl t
    · exact (makeDirectory_eq_ok made).1

theorem exists_leadsTo_of_makeDirectories (made : t.makeDirectories p = (true, u)) :
    ∃ l, u.LeadsTo p l := by
  rw [makeDirectories, makeFirst] at made
  rcases first : t.makeDirectory p with (_ | _) | v
  · rw [first] at made
    rcases outer : t.makeFirst (Path.around p.reverse) with ⟨_ | _, v⟩
    · simp [outer] at made
    · cases again : v.makeDirectory p with
      | error e => simp [outer, again] at made
      | ok w =>
        simp only [outer, again, Prod.mk.injEq, true_and] at made
        rw [← made]
        exact (makeDirectory_eq_ok again).2
  · rw [first] at made
    cases made
  · rw [first] at made
    cases made
    exact (makeDirectory_eq_ok first).2

end PeerPanel.FileTree
