import Mathlib.Data.List.Basic
import PeerPanel.Search.TextField

/-!
Who learns of the edits of a text field.

A listener is told every text that the field takes while it listens (`Audience.told_run`). A reader
takes the text that is there when it is polled. So it meets some of these texts in their order
(`Audience.Follows`), and once it was polled it is behind by as many as came since.
Main statement: `Audience.edits_are_reported`.
-/

set_option autoImplicit false
set_option relaxedAutoImplicit false

namespace PeerPanel.Search

/-- A reader of a text field, and the texts that it was given. -/
structure Audience.Reader where
  observer : Observer := {}
  seen : List String := []

/-- A text field, what its listeners were told, and its readers in the order in which they came. -/
structure Audience (ℓ : Type) where
  field : TextField ℓ
  told : List (Call ℓ) := []
  readers : List Audience.Reader := []

inductive Audience.Event (ℓ : Type)
  | edit (text : String)
  | listen (l : ℓ)
  | watch
  | poll (n : Nat)

namespace Audience

variable {ℓ : Type}

/-- What a reader is given when it is polled. -/
def Reader.next? (r : Reader) (f : TextField ℓ) : Option String := (r.observer.poll f.text).1

def Reader.poll (r : Reader) (f : TextField ℓ) : Reader :=
  { observer := (r.observer.poll f.text).2, seen := r.seen ++ (r.next? f).toList }

def play (s : Audience ℓ) : Event ℓ → Audience ℓ
  | .edit text =>
    { s with field := (s.field.edit text).1, told := s.told ++ (s.field.edit text).2.toList }
  | .listen l =>
    { s with field := (s.field.listen l).1, told := s.told ++ [(s.field.listen l).2] }
  | .watch => { s with readers := s.readers ++ [{}] }
  | .poll n => { s with readers := s.readers.modify n (·.poll s.field) }

def run (s : Audience ℓ) (events : List (Event ℓ)) : Audience ℓ := events.foldl play s

/-- The texts that are set. -/
def edits (events : List (Event ℓ)) : List String :=
  events.filterMap fun
    | .edit text => some text
    | _ => none

/-- The texts that are set and differ from the ones before them, of which the first is given. -/
def changes (held : String) : List (Event ℓ) → List String
  | [] => []
  | .edit text :: later =>
    if held = text then changes held later else text :: changes text later
  | _ :: later => changes held later

def Event.isListen : Event ℓ → Bool
  | listen _ => true
  | _ => false

/-- Each listener in turn, with the text that is there when it is set and the changes until the next
one is set. -/
def tenures (held : String) : List (Event ℓ) → List (ℓ × List String)
  | [] => []
  | .listen l :: later =>
    (l, held :: changes held (later.takeWhile (!·.isListen))) :: tenures held later
  | .edit text :: later => tenures text later
  | _ :: later => tenures held later

variable {s : Audience ℓ} {r : Reader} {n : Nat} {held : List String} {events : List (Event ℓ)}

@[simp] theorem run_cons (s : Audience ℓ) (e : Event ℓ) (later : List (Event ℓ)) :
    s.run (e :: later) = (s.play e).run later :=
  rfl

private theorem run_append (s : Audience ℓ) (front back : List (Event ℓ)) :
    s.run (front ++ back) = (s.run front).run back :=
  List.foldl_append

private theorem play_edit (s : Audience ℓ) (text : String) :
    s.play (.edit text) =
      if s.field.value = text then s
      else { s with
        field := { s.field with text := s.field.text.send text }
        told := s.told ++ s.field.listener.toList.map (·, text) } := by
  obtain ⟨⟨w, listener⟩, told, readers⟩ := s
  rw [play, TextField.edit]
  split
  · simp
  · cases listener with
    | none => rfl
    | some l => rfl

/-! ## The text -/

private theorem value_play_edit (s : Audience ℓ) (text : String) :
    (s.play (.edit text)).field.value = text :=
  TextField.value_edit s.field text

private theorem value_run (s : Audience ℓ) (events : List (Event ℓ)) :
    (s.run events).field.value = (edits events).getLast?.getD s.field.value := by
  induction events generalizing s with
  | nil => rfl
  | cons e later ih =>
    rw [run_cons, ih]
    cases e with
    | edit text =>
      have first : edits (.edit text :: later) = text :: edits later := rfl
      rw [first, value_play_edit, List.getLast?_cons]
      rfl
    | listen l => rfl
    | watch => rfl
    | poll n => rfl

private theorem changes_cons (s : Audience ℓ) (e : Event ℓ) (later : List (Event ℓ)) :
    changes s.field.value (e :: later) =
      changes s.field.value [e] ++ changes (s.play e).field.value later := by
  cases e with
  | edit text =>
    rw [value_play_edit]
    by_cases same : s.field.value = text
    · simp [changes, same]
    · simp [changes, same]
  | listen l => rfl
  | watch => rfl
  | poll n => rfl

private theorem sends_play (s : Audience ℓ) (e : Event ℓ) :
    (s.play e).field.text.sends =
      s.field.text.sends + (changes s.field.value [e]).length := by
  cases e with
  | edit text =>
    rw [play_edit, changes]
    split
    · rfl
    · rfl
  | listen l => rfl
  | watch => rfl
  | poll n => rfl

private theorem sends_run (s : Audience ℓ) (events : List (Event ℓ)) :
    (s.run events).field.text.sends =
      s.field.text.sends + (changes s.field.value events).length := by
  induction events generalizing s with
  | nil => rfl
  | cons e later ih =>
    rw [run_cons, ih, sends_play, changes_cons s e later, List.length_append, Nat.add_assoc]

/-! ## The listeners -/

/-- What the present listener is told until it is replaced. -/
def heard (s : Audience ℓ) (events : List (Event ℓ)) : List (Call ℓ) :=
  s.field.listener.toList.flatMap fun l =>
    (changes s.field.value (events.takeWhile (!·.isListen))).map (l, ·)

private theorem heard_edit (s : Audience ℓ) (text : String) (later : List (Event ℓ)) :
    (s.play (.edit text)).told ++ (s.play (.edit text)).heard later =
      s.told ++ s.heard (.edit text :: later) := by
  have stays : (Event.edit text :: later).takeWhile (!·.isListen) =
      .edit text :: later.takeWhile (!·.isListen) := List.takeWhile_cons_of_pos rfl
  unfold heard
  rw [play_edit, stays, changes]
  split
  · next same => rw [same]
  · cases s.field.listener with
    | none => simp
    | some l => simp [TextField.value]

/-- The present listener is told the changes until it is replaced, and each later one what comes in
its time. -/
theorem told_run (s : Audience ℓ) (events : List (Event ℓ)) :
    (s.run events).told =
      s.told ++ s.heard events ++
        (tenures s.field.value events).flatMap fun t => t.2.map (t.1, ·) := by
  induction events generalizing s with
  | nil => simp [run, heard, changes, tenures]
  | cons e later ih =>
    rw [run_cons, ih]
    cases e with
    | edit text => rw [heard_edit, value_play_edit, tenures]
    | listen l =>
      have silent : s.heard (.listen l :: later) = [] := by simp [heard, Event.isListen, changes]
      rw [silent, tenures]
      simp [play, TextField.listen, heard, TextField.value]
    | watch => rfl
    | poll n => rfl

/-! ## The readers -/

theorem Reader.next?_eq (r : Reader) (f : TextField ℓ) :
    r.next? f = if r.observer.seen = some f.text.sends then none else some f.value := by
  unfold next? Observer.poll Observer.hasNews
  by_cases level : r.observer.seen = some f.text.sends
  · simp [level]
  · simp [level, TextField.value]

private theorem Reader.poll_eq (r : Reader) (f : TextField ℓ) :
    r.poll f =
      if r.observer.seen = some f.text.sends then r
      else { observer := ⟨some f.text.sends⟩, seen := r.seen ++ [f.value] } := by
  rw [poll, next?_eq]
  unfold Observer.poll Observer.hasNews
  by_cases level : r.observer.seen = some f.text.sends
  · simp [level]
  · simp [level]

theorem Reader.seen_observer_poll (r : Reader) (f : TextField ℓ) :
    (r.poll f).observer.seen = some f.text.sends := by
  rw [poll_eq]
  split
  · assumption
  · rfl

private theorem Reader.poll_poll (r : Reader) (f : TextField ℓ) : (r.poll f).poll f = r.poll f := by
  rw [poll_eq (r.poll f), if_pos (r.seen_observer_poll f)]

/-- The texts that there were for a reader are those that it has met, the last one of them surely,
and then those that came with the sends that it does not know of. -/
def Follows (held : List String) (w : Watched String) (r : Reader) : Prop :=
  held.getLast? = some w.value ∧
    match r.observer.seen with
    | none => r.seen = []
    | some m => ∃ met rest, held = met ++ rest ∧ m + rest.length = w.sends ∧
        r.seen.Sublist met ∧ r.seen.getLast? = met.getLast?

variable {w : Watched String}

private theorem Follows.sublist (h : Follows held w r) : r.seen.Sublist held := by
  obtain ⟨-, how⟩ := h
  split at how
  · rw [how]
    exact List.nil_sublist held
  · obtain ⟨met, rest, rfl, -, seen, -⟩ := how
    exact seen.trans (List.sublist_append_left met rest)

theorem Follows.getLast?_seen (h : Follows held w r) (level : r.observer.seen = some w.sends) :
    r.seen.getLast? = some w.value := by
  obtain ⟨last, how⟩ := h
  rw [level] at how
  obtain ⟨met, rest, split, count, -, latest⟩ := how
  have nothing : rest = [] := List.eq_nil_of_length_eq_zero (by omega)
  rw [latest, ← last, split, nothing, List.append_nil]

private theorem Follows.sublist_append (h : Follows held w r)
    (behind : r.observer.seen ≠ some w.sends) :
    (r.seen ++ [w.value]).Sublist held := by
  obtain ⟨last, how⟩ := h
  split at how
  · rw [how]
    exact List.singleton_sublist.mpr (List.mem_of_getLast? last)
  · next m known =>
    obtain ⟨met, rest, rfl, count, seen, -⟩ := how
    rcases List.eq_nil_or_concat' rest with rfl | ⟨passed, text, rfl⟩
    · rw [known] at behind
      exact absurd (congrArg some count) behind
    · rw [← List.append_assoc, List.getLast?_concat] at last
      rw [← Option.some.inj last]
      exact seen.append (List.sublist_append_right passed [text])

theorem Follows.send (h : Follows held w r) (text : String) :
    Follows (held ++ [text]) (w.send text) r := by
  refine ⟨List.getLast?_concat, ?_⟩
  obtain ⟨-, how⟩ := h
  split at how
  · exact how
  · obtain ⟨met, rest, rfl, count, seen, latest⟩ := how
    refine ⟨met, rest ++ [text], List.append_assoc .., ?_, seen, latest⟩
    rw [List.length_append, ← Nat.add_assoc, count]
    rfl

theorem Follows.poll {f : TextField ℓ} (h : Follows held f.text r) :
    Follows held f.text (r.poll f) := by
  rw [Reader.poll_eq]
  split
  · exact h
  · next behind =>
    refine ⟨h.1, held, [], (List.append_nil held).symm, rfl, h.sublist_append behind, ?_⟩
    rw [List.getLast?_concat]
    exact h.1.symm

private theorem follows_play (there : s.readers[n]? = some r) (h : Follows held s.field.text r)
    (e : Event ℓ) :
    ∃ r', (s.play e).readers[n]? = some r' ∧
      Follows (held ++ changes s.field.value [e]) (s.play e).field.text r' := by
  cases e with
  | edit text =>
    rw [play_edit, changes]
    split
    · exact ⟨r, there, by rwa [changes, List.append_nil]⟩
    · exact ⟨r, there, h.send text⟩
  | listen l =>
    have silent : changes s.field.value [Event.listen l] = [] := rfl
    exact ⟨r, there, by rwa [silent, List.append_nil]⟩
  | watch =>
    have silent : changes s.field.value [(Event.watch : Event ℓ)] = [] := rfl
    refine ⟨r, ?_, by rwa [silent, List.append_nil]⟩
    exact (List.getElem?_append_left (List.getElem?_eq_some_iff.mp there).1).trans there
  | poll m =>
    have silent : changes s.field.value [(Event.poll m : Event ℓ)] = [] := rfl
    rw [silent, List.append_nil]
    have given : (s.play (.poll m)).readers[n]? =
        some (if m = n then r.poll s.field else r) := by
      rw [play, List.getElem?_modify, there]
      rfl
    refine ⟨_, given, ?_⟩
    split
    · exact h.poll
    · exact h

private theorem follows_run (there : s.readers[n]? = some r) (h : Follows held s.field.text r)
    (events : List (Event ℓ)) :
    ∃ r', (s.run events).readers[n]? = some r' ∧
      Follows (held ++ changes s.field.value events) (s.run events).field.text r' := by
  induction events generalizing s r held with
  | nil => exact ⟨r, there, by rwa [changes, List.append_nil]⟩
  | cons e later ih =>
    obtain ⟨r', there', h'⟩ := follows_play there h e
    obtain ⟨r'', there'', h''⟩ := ih there' h'
    refine ⟨r'', there'', ?_⟩
    rwa [changes_cons, ← List.append_assoc]

private theorem getElem?_readers_run (there : s.readers[n]? = some r)
    (unpolled : .poll n ∉ events) :
    (s.run events).readers[n]? = some r := by
  induction events generalizing s with
  | nil => exact there
  | cons e later ih =>
    rw [List.mem_cons, not_or] at unpolled
    obtain ⟨other, rest⟩ := unpolled
    refine ih ?_ rest
    cases e with
    | edit text => exact there
    | listen l => exact there
    | watch =>
      exact (List.getElem?_append_left (List.getElem?_eq_some_iff.mp there).1).trans there
    | poll m =>
      have distinct : m ≠ n := fun same => other (same ▸ rfl)
      rw [play, List.getElem?_modify, there]
      simp [distinct]

private theorem getElem?_readers_poll (there : s.readers[n]? = some r) :
    (s.play (.poll n)).readers[n]? = some (r.poll s.field) := by
  rw [play, List.getElem?_modify, there]
  simp

private theorem getElem?_readers_drain (there : s.readers[n]? = some r) (k : Nat) :
    (s.run (List.replicate (k + 1) (.poll n))).readers[n]? = some (r.poll s.field) := by
  induction k generalizing s r with
  | zero => exact getElem?_readers_poll there
  | succ k ih =>
    have further := ih (getElem?_readers_poll there)
    have same : (s.play (.poll n)).field = s.field := rfl
    rwa [same, Reader.poll_poll] at further

private theorem next?_after_poll (there : s.readers[n]? = some r) (h : Follows held s.field.text r)
    {stay : List (Event ℓ)} (unpolled : .poll n ∉ stay) :
    ∃ r', (s.run (.poll n :: stay)).readers[n]? = some r' ∧
      r'.seen.getLast? = some s.field.value ∧
      r'.next? (s.run (.poll n :: stay)).field =
        if changes s.field.value stay = [] then none
        else some (s.run (.poll n :: stay)).field.value := by
  have level : (r.poll s.field).observer.seen = some s.field.text.sends :=
    r.seen_observer_poll s.field
  refine ⟨r.poll s.field, ?_, h.poll.getLast?_seen level, ?_⟩
  · rw [run_cons]
    exact getElem?_readers_run (getElem?_readers_poll there) unpolled
  · have sends : (s.run (.poll n :: stay)).field.text.sends =
        s.field.text.sends + (changes s.field.value stay).length :=
      (s.play (.poll n)).sends_run stay
    rw [Reader.next?_eq, level, sends]
    cases changes s.field.value stay with
    | nil => simp
    | cons text more => simp

/-- Each listener is told the text that is there when it is set and then every change, in order,
until the next one is set. A reader, however seldom it is polled, is given some of the texts that
there were since it came, in their order: the present one, or nothing if it has met that and it
stayed. -/
theorem edits_are_reported (text : String) (events : List (Event ℓ)) :
    let start : Audience ℓ := { field := .ofText text }
    let s := start.run events
    s.field.value = (edits events).getLast?.getD text ∧
      s.told = ((tenures text events).flatMap fun t => t.2.map (t.1, ·)) ∧
      ∀ front back, events = front ++ .watch :: back →
        let n := (start.run front).readers.length
        let v := (start.run front).field.value
        ∃ r, s.readers[n]? = some r ∧
          r.seen.Sublist (v :: changes v back) ∧
          (.poll n ∉ back → r.seen = [] ∧ r.next? s.field = some s.field.value) ∧
          (∀ before stay, back = before ++ .poll n :: stay → .poll n ∉ stay →
            let w := (start.run (front ++ .watch :: before)).field.value
            r.seen.getLast? = some w ∧
              r.next? s.field = if changes w stay = [] then none else some s.field.value) ∧
          ∀ k, ∃ r', (s.run (List.replicate (k + 1) (.poll n))).readers[n]? = some r' ∧
            r'.seen = r.seen ++ (r.next? s.field).toList ∧
            r'.seen.getLast? = some s.field.value := by
  intro start s
  refine ⟨value_run start events, told_run start events, ?_⟩
  rintro front back split n v
  have came : ((start.run front).play .watch).readers[n]? = some {} := List.getElem?_concat_length
  have fresh : Follows [v] ((start.run front).play .watch).field.text {} := ⟨rfl, rfl⟩
  have whole : s = ((start.run front).play .watch).run back := by
    rw [← run_cons, ← run_append, ← split]
  obtain ⟨r, there, follows⟩ := follows_run came fresh back
  rw [← whole] at there follows
  refine ⟨r, there, follows.sublist, fun unpolled => ?_, fun before stay parts unpolled => ?_,
    fun k => ?_⟩
  · have kept := getElem?_readers_run came unpolled
    rw [← whole, there] at kept
    rw [Option.some.inj kept]
    exact ⟨rfl, rfl⟩
  · obtain ⟨r₁, there₁, follows₁⟩ := follows_run came fresh before
    obtain ⟨r₂, there₂, latest, next⟩ := next?_after_poll there₁ follows₁ unpolled
    have again : s = (((start.run front).play .watch).run before).run (.poll n :: stay) := by
      rw [← run_append, ← parts, whole]
    rw [← again, there] at there₂
    rw [← again] at next
    rw [run_append, run_cons, Option.some.inj there₂]
    exact ⟨latest, next⟩
  · exact ⟨_, getElem?_readers_drain there k, rfl,
      follows.poll.getLast?_seen (r.seen_observer_poll s.field)⟩

end Audience

end PeerPanel.Search
