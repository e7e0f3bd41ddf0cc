import PeerPanel.Proofs.Panel.Parts

/-!
A panel over time: it is opened from an entry, and after that it is switched, built anew, typed into
and waited for, while the account changes as it likes.

In every panel that is reached so, what the search is heading for is the query for the text of the
field (`field_and_search_agree`). So when nothing has set the text for as long as the delay, the
search has arrived there.
-/

set_option autoImplicit false
set_option relaxedAutoImplicit false

namespace PeerPanel.Panel

open Search (Moment Query Debounce TextField)

inductive Event
  | switchTo (e : Entry)
  | rebuild (e : Entry)
  | typeText (text : String)
  | setSearchEnabled (enabled : Bool)
  /-- The account becomes another one. -/
  | account (a : Account)
  | wait (ms : Nat)

def Event.duration : Event → Nat
  | wait ms => ms
  | _ => 0

/-- A panel and the account that it reads, at a moment. -/
structure Scene where
  panel : Panel
  account : Account
  now : Moment

namespace Scene

/-- The panel after an event. One that is refused leaves what the operation hands back. -/
def panelAfter (c : SearchConfig) (s : Scene) : Event → Panel
  | .switchTo e => (s.panel.switchTo s.account c s.now e).2
  | .rebuild e => (s.panel.rebuild s.account c s.now e).2
  | .typeText text => s.panel.typeText s.account s.now text
  | .setSearchEnabled enabled => s.panel.setSearchEnabled enabled
  | .account _ => s.panel
  | .wait ms => s.panel.reach s.account (s.now.time + ms)

def accountAfter (s : Scene) : Event → Account
  | .account a => a
  | _ => s.account

def play (c : SearchConfig) (s : Scene) (e : Event) : Scene :=
  { panel := s.panelAfter c e, account := s.accountAfter e, now := s.now.next e.duration }

def run (c : SearchConfig) (s : Scene) (events : List Event) : Scene := events.foldl (play c) s

/-- The scenes that events lead to from a panel that was opened. -/
inductive Reached (c : SearchConfig) : Scene → Prop
  | opened {a : Account} {now : Moment} {e : Entry} {panel : Panel} :
      ofEntry a c now e = .ok panel → Reached c ⟨panel, a, now.next 0⟩
  | event {s : Scene} (e : Event) : Reached c s → Reached c (s.play c e)

variable {c : SearchConfig} {s : Scene}

theorem whole_panelAfter (h : s.panel.Whole c (s.now.after c.delayMs)) (e : Event) :
    (s.panelAfter c e).Whole c (s.now.after c.delayMs) := by
  cases e with
  | switchTo e => exact h.switchTo s.account s.now e (Nat.le_refl _)
  | rebuild e => exact h.rebuild s.account s.now e (Nat.le_refl _)
  | typeText text => exact h.typeText s.account s.now text (Nat.le_refl _)
  | setSearchEnabled enabled => exact h.setSearchEnabled enabled
  | account a => exact h
  | wait ms => exact h.reach s.account (s.now.time + ms)

/-- Every panel that is reached is whole, and nothing in it waits longer than the delay. -/
theorem Reached.whole (reached : Reached c s) : s.panel.Whole c (s.now.after c.delayMs) := by
  induction reached with
  | @opened a now e panel opened =>
    rcases ofEntry_cases a c now e with ⟨refusal, eq⟩ | ⟨built, eq, -, whole⟩
    · rw [eq] at opened
      cases opened
    · rw [eq] at opened
      cases opened
      exact whole.mono (now.after_le_after_next 0 c.delayMs)
  | @event s e _ ih =>
    exact (whole_panelAfter ih e).mono (s.now.after_le_after_next e.duration c.delayMs)

/-- Whether an event sets the text of the field: an edit that changes it, or an entry that is taken
over. -/
def setsText (c : SearchConfig) (s : Scene) : Event → Bool
  | .switchTo e => (s.panel.switchTo s.account c s.now e).1.isOk
  | .rebuild e => (s.panel.rebuild s.account c s.now e).1.isOk
  | .typeText text => s.panel.field.any (·.value ≠ text)
  | _ => false

def Undisturbed (c : SearchConfig) : Scene → List Event → Prop
  | _, [] => True
  | s, e :: later => s.setsText c e = false ∧ Undisturbed c (s.play c e) later

def waited : List Event → Nat
  | [] => 0
  | e :: later => e.duration + waited later

private theorem duration_eq_zero {e : Event} (instant : ∀ ms, e ≠ .wait ms) : e.duration = 0 := by
  cases e with
  | wait ms => exact absurd rfl (instant ms)
  | _ => rfl

private theorem exists_wait_of_waited_pos {events : List Event} (pos : 0 < waited events) :
    ∃ ms, .wait ms ∈ events := by
  induction events with
  | nil => cases pos
  | cons e later ih =>
    by_cases instant : ∀ ms, e ≠ .wait ms
    · rw [waited, duration_eq_zero instant, Nat.zero_add] at pos
      obtain ⟨ms, mem⟩ := ih pos
      exact ⟨ms, List.mem_cons_of_mem e mem⟩
    · obtain ⟨ms, rfl⟩ := Classical.not_forall_not.mp instant
      exact ⟨ms, List.mem_cons_self⟩

private theorem search_panelAfter (e : Event) (still : s.setsText c e = false) :
    (∀ ms, e ≠ .wait ms) ∧ (s.panelAfter c e).search = s.panel.search ∨
      ∃ ms, e = .wait ms ∧
        (s.panelAfter c e).search =
          s.panel.search.map (·.reach s.account (s.now.time + ms)) := by
  cases e with
  | switchTo e =>
    rcases s.panel.switchTo_cases s.account c s.now e with ⟨refusal, eq⟩ | ⟨built, eq, -⟩
    · exact .inl ⟨by simp, by rw [panelAfter, eq]⟩
    · rw [setsText, eq] at still
      cases still
  | rebuild e =>
    rcases s.panel.rebuild_cases s.account c s.now e with ⟨refusal, eq⟩ | ⟨built, eq, -⟩
    · exact .inl ⟨by simp, by rw [panelAfter, eq]⟩
    · rw [setsText, eq] at still
      cases still
  | typeText text =>
    refine .inl ⟨by simp, ?_⟩
    rw [panelAfter]
    cases hf : s.panel.field with
    | none => rw [typeText_of_no_field hf]
    | some f =>
      have same : f.value = text := by simpa [setsText, hf] using still
      rw [typeText_of_field hf, if_pos same]
  | setSearchEnabled enabled => exact .inl ⟨by simp, rfl⟩
  | account a => exact .inl ⟨by simp, rfl⟩
  | wait ms => exact .inr ⟨ms, rfl, rfl⟩

/-- In a panel that nobody disturbs, nothing waits once a limit is reached that all waiting keeps
to. The induction is on the events: before the limit is reached there is still a wait to come, and
after it nothing begins to wait. -/
private theorem waiting_run_of_undisturbed {limit : Nat} {later : List Event} {s : Scene}
    (sound : ∀ d ∈ s.panel.search, d.Sound c.delayMs limit) (undisturbed : Undisturbed c s later)
    (ends : (∀ d ∈ s.panel.search, d.waiting = none) ∨
      limit ≤ s.now.time + waited later ∧ ∃ ms, .wait ms ∈ later) :
    ∀ d ∈ (s.run c later).panel.search, d.waiting = none := by
  induction later generalizing s with
  | nil =>
    rcases ends with idle | ⟨-, ms, mem⟩
    · exact idle
    · cases mem
  | cons e later ih =>
    obtain ⟨still, undisturbed⟩ := undisturbed
    rcases search_panelAfter e still with ⟨instant, same⟩ | ⟨ms, rfl, passed⟩
    · refine ih (by rwa [play, same]) undisturbed ?_
      rcases ends with idle | ⟨reached, ms, mem⟩
      · left
        rwa [play, same]
      · right
        rw [waited, duration_eq_zero instant, Nat.zero_add] at reached
        have ahead := (List.mem_cons.mp mem).resolve_left (instant ms).symm
        exact ⟨by rwa [play, duration_eq_zero instant], ms, ahead⟩
    · have before : ∀ d' ∈ (s.play c (.wait ms)).panel.search,
          ∃ d ∈ s.panel.search, d.reach s.account (s.now.time + ms) = d' := by
        intro d' hd'
        rw [play, passed] at hd'
        exact Option.map_eq_some_iff.mp hd'
      refine ih ?_ undisturbed ?_
      · intro d' hd'
        obtain ⟨d, hd, rfl⟩ := before d' hd'
        exact (sound d hd).reach s.account (s.now.time + ms)
      · rcases ends with idle | ⟨reached, -⟩
        · left
          intro d' hd'
          obtain ⟨d, hd, rfl⟩ := before d' hd'
          exact (sound d hd).waiting_reach_of_idle s.account (idle d hd) (s.now.time + ms)
        · have total : limit ≤ s.now.time + ms + waited later := by
            rwa [waited, Event.duration, ← Nat.add_assoc] at reached
          by_cases arrived : limit ≤ s.now.time + ms
          · left
            intro d' hd'
            obtain ⟨d, hd, rfl⟩ := before d' hd'
            exact (sound d hd).waiting_reach s.account arrived
          · exact .inr ⟨total, exists_wait_of_waited_pos (by omega)⟩

theorem Reached.run (reached : Reached c s) (events : List Event) : Reached c (s.run c events) := by
  induction events generalizing s with
  | nil => exact reached
  | cons e later ih => exact ih (.event e reached)

/-- Where a panel has a field and a search, the search is heading for the query of the shown media
list with the text of the field, and it is there when the delay has passed since the text was set
and the search was given its turn. -/
theorem field_and_search_agree (reached : Reached c s) :
    (∀ f ∈ s.panel.field, ∀ d ∈ s.panel.search,
      s.panel.query f.value = .ok d.goal ∧
        ∃ kind peer, s.panel.shown = .media kind ∧ s.panel.subject = .peer peer ∧
          d.goal = { kind, peer, migrated := s.panel.migrated, text := f.value }) ∧
    ∀ later, Undisturbed c s later → c.delayMs ≤ waited later → (∃ ms, .wait ms ∈ later) →
      ∀ f ∈ (s.run c later).panel.field, ∀ d ∈ (s.run c later).panel.search,
        d.waiting = none ∧ (s.run c later).panel.query f.value = .ok d.applied := by
  have whole := reached.whole
  constructor
  · intro f hf d hd
    have aim := whole.aim f hf d hd
    exact ⟨aim, query_eq_ok_iff.mp aim⟩
  · intro later undisturbed long wait f hf d hd
    have in_time : s.now.after c.delayMs ≤ s.now.time + waited later :=
      Nat.add_le_add_left long _
    have idle := waiting_run_of_undisturbed whole.sound undisturbed (.inr ⟨in_time, wait⟩) d hd
    have aim := (reached.run later).whole.aim f hf d hd
    rw [Debounce.goal, idle] at aim
    exact ⟨idle, aim⟩

/-- Files of a peer, with a text for the field and a search for something else. -/
def strayEntry : Entry :=
  { subject := .peer ⟨2⟩, migrated := some ⟨1⟩, fieldText := "plan"
    content := .media .file
      { query := { kind := .link, peer := ⟨3⟩, migrated := none, text := "old" } } }

def strayScene : Scene where
  panel := (ofEntry {} {} ⟨0, 0⟩ strayEntry).toOption.getD (bare strayEntry)
  account := {}
  now := ⟨0, 1⟩

theorem reached_strayScene : Reached {} strayScene := by
  have opened : ofEntry {} {} ⟨0, 0⟩ strayEntry = .ok strayScene.panel := rfl
  exact .opened opened

/-- The search that was put aside in `strayEntry` gives way to the text of the field. -/
theorem stray_search_gives_way :
    (∃ d ∈ strayScene.panel.search, d.applied.text = "old" ∧
      strayScene.panel.query "plan" = .ok d.goal) ∧
    ∃ d ∈ (strayScene.run {} [.wait 150, .typeText "plan", .wait 50]).panel.search,
      d.waiting = none ∧ d.applied = ⟨.file, ⟨2⟩, some ⟨1⟩, "plan"⟩ := by
  have still : Undisturbed {} strayScene [.wait 150, .typeText "plan", .wait 50] :=
    ⟨rfl, rfl, rfl, trivial⟩
  obtain ⟨aims, arrives⟩ := field_and_search_agree reached_strayScene
  constructor
  · exact ⟨_, rfl, rfl, (aims _ rfl _ rfl).1⟩
  · obtain ⟨idle, asked⟩ := arrives _ still (by decide) ⟨50, by simp⟩ _ rfl _ rfl
    exact ⟨_, rfl, idle, Except.ok.inj asked.symm⟩

end Scene

end PeerPanel.Panel
