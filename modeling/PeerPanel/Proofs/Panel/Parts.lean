import PeerPanel.Panel.Basic
import PeerPanel.Proofs.Search.Pending

/-!
The parts of a panel belong together.

Which section is shown decides whether there is a search and whether there is a field, the field
fills in the query of the shown media list, and the search is heading for the text of the field.
`Panel.Whole` says so. Building a panel anew makes it whole from whatever entry, and typing and the
passing of time keep it whole.
-/

set_option autoImplicit false
set_option relaxedAutoImplicit false

namespace PeerPanel

theorem Section.isSome_media?_iff {s : Section} :
    s.media?.isSome = true ↔ ∃ kind, s = .media kind := by
  cases s <;> simp [media?]

namespace Panel

open Search (Moment Query Debounce TextField)

/-- The query that the field fills in, in a section that is searched. -/
def template? (p : Panel) : Option Query := (p.query "").toOption

theorem query_eq_ok_iff {p : Panel} {text : String} {q : Query} :
    p.query text = .ok q ↔
      ∃ kind peer, p.shown = .media kind ∧ p.subject = .peer peer ∧
        q = { kind, peer, migrated := p.migrated, text } := by
  unfold query Pane.mediaKind Pane.peer
  constructor
  · intro h
    cases shown : p.shown with
    | media kind =>
      cases subject : p.subject with
      | peer peer =>
        rw [shown, subject] at h
        cases h
        exact ⟨kind, peer, rfl, rfl, rfl⟩
      | _ =>
        rw [shown, subject] at h
        cases h
    | _ =>
      rw [shown] at h
      cases h
  · rintro ⟨kind, peer, shown, subject, rfl⟩
    rw [shown, subject]
    rfl

theorem template?_eq_some_iff {p : Panel} {q : Query} :
    p.template? = some q ↔
      ∃ kind peer, p.shown = .media kind ∧ p.subject = .peer peer ∧
        q = { kind, peer, migrated := p.migrated } := by
  rw [← query_eq_ok_iff, template?]
  cases p.query "" <;> simp [Except.toOption]

theorem query_of_template? {p : Panel} {q : Query} (h : p.template? = some q) (text : String) :
    p.query text = .ok (q.withText text) := by
  obtain ⟨kind, peer, shown, subject, rfl⟩ := template?_eq_some_iff.mp h
  exact query_eq_ok_iff.mpr ⟨kind, peer, shown, subject, rfl⟩

private theorem query_eq_goal_request {p : Panel} {template : Query}
    (h : p.template? = some template) (d : Debounce) (a : Account) (now : Moment) (text : String) :
    p.query text = .ok (d.request a now (template.withText text)).goal := by
  have heading : (d.request a now (template.withText text)).goal = template.withText text :=
    Debounce.goal_requestAfter a now (template.withText text) d.delay
  rw [heading]
  exact query_of_template? h text

theorem template?_congr {p p' : Panel} (h : p'.toPane = p.toPane) :
    p'.template? = p.template? := by
  unfold template? query
  rw [h]

private theorem template?_of_unsearched {p : Panel} (h : p.shown.media? = none) :
    p.template? = none := by
  rw [Option.eq_none_iff_forall_ne_some]
  intro q fills
  obtain ⟨kind, peer, shown, -⟩ := template?_eq_some_iff.mp fills
  rw [shown] at h
  cases h

theorem searchFor_of_unsearched {p : Panel} (h : p.shown.media? = none) (a : Account)
    (c : SearchConfig) (e : Entry) : p.searchFor a c e = .ok none := by
  unfold searchFor
  cases shown : p.shown with
  | media kind =>
    rw [shown] at h
    cases h
  | _ => rfl

theorem searchFor_of_template? {p : Panel} {template : Query} (h : p.template? = some template)
    (a : Account) (c : SearchConfig) {e : Entry} {saved : Search.Saved}
    (hs : e.search = .ok saved) :
    p.searchFor a c e = .ok (some (.ofSaved a c.delayMs saved, template)) := by
  obtain ⟨kind, peer, shown, subject, rfl⟩ := template?_eq_some_iff.mp h
  unfold searchFor Pane.peer
  rw [shown, subject, hs]
  rfl

theorem searchFor_cases (p : Panel) (a : Account) (c : SearchConfig) (e : Entry) :
    (∃ refusal, p.searchFor a c e = .error refusal) ∨
      (p.shown.media? = none ∧ p.searchFor a c e = .ok none) ∨
      ∃ saved template, p.shown.media?.isSome = true ∧ p.template? = some template ∧
        p.searchFor a c e = .ok (some (.ofSaved a c.delayMs saved, template)) := by
  cases shown : p.shown with
  | media kind =>
    cases hs : e.search with
    | error refusal =>
      refine .inl ⟨refusal, ?_⟩
      rw [searchFor, shown, hs]
      rfl
    | ok saved =>
      cases subject : p.subject with
      | peer peer =>
        have fills := template?_eq_some_iff.mpr ⟨kind, peer, shown, subject, rfl⟩
        exact .inr (.inr ⟨saved, _, rfl, fills, searchFor_of_template? fills a c hs⟩)
      | _ =>
        refine .inl ⟨.notAPeer p.subject, ?_⟩
        rw [searchFor, shown, hs, Pane.peer, subject]
        rfl
  | _ => exact .inr (.inl ⟨rfl, searchFor_of_unsearched (by rw [shown]; rfl) a c e⟩)

/-- Field, search and section belong together, and nothing waits beyond a time. -/
structure Whole (c : SearchConfig) (limit : Nat) (p : Panel) : Prop where
  searched : p.search.isSome = p.shown.media?.isSome
  fielded : p.field.isSome = c.hasField p.shown
  peered : p.template?.isSome = p.shown.media?.isSome
  listener : ∀ f ∈ p.field, f.listener = p.template?
  aim : ∀ f ∈ p.field, ∀ d ∈ p.search, p.query f.value = .ok d.goal
  sound : ∀ d ∈ p.search, d.Sound c.delayMs limit

section Rebuild

variable {p : Panel} (a : Account) {c : SearchConfig} (now : Moment) {e : Entry}

theorem rebuild_of_refused {refusal : PanelError} (h : p.searchFor a c e = .error refusal) :
    p.rebuild a c now e = (.error refusal, p) := by
  unfold rebuild
  rw [h]

theorem rebuild_of_unsearched (h : p.searchFor a c e = .ok none) :
    p.rebuild a c now e = (.ok (),
      if c.hasField p.shown then
        { p with
          field := some (.ofText e.fieldText)
          search := none
          searchEnabled := p.searchEnabled.update e.searchEnabled
          startsFocused := e.startsFocused }
      else { p with field := none, search := none }) := by
  unfold rebuild
  rw [h]
  cases c.hasField p.shown <;> rfl

theorem rebuild_of_searched {d : Debounce} {template : Query}
    (h : p.searchFor a c e = .ok (some (d, template))) :
    p.rebuild a c now e = (.ok (),
      if c.hasField p.shown then
        { p with
          field := some { text := { value := e.fieldText }, listener := some template }
          search := some (d.request a now (template.withText e.fieldText))
          searchEnabled := p.searchEnabled.update e.searchEnabled
          startsFocused := e.startsFocused }
      else { p with field := none, search := some d }) := by
  unfold rebuild
  rw [h]
  cases c.hasField p.shown <;> rfl

end Rebuild

/-- Building a panel anew is refused and changes nothing, or makes it whole. -/
theorem rebuild_cases (p : Panel) (a : Account) (c : SearchConfig) (now : Moment) (e : Entry) :
    (∃ refusal, p.rebuild a c now e = (.error refusal, p)) ∨
      ∃ built, p.rebuild a c now e = (.ok (), built) ∧ built.toPane = p.toPane ∧
        built.Whole c (now.after c.delayMs) := by
  rcases p.searchFor_cases a c e with
    ⟨refusal, h⟩ | ⟨unsearched, h⟩ | ⟨saved, template, searched, fills, h⟩
  · exact .inl ⟨refusal, rebuild_of_refused a now h⟩
  · have bare : (none : Option Debounce).isSome = p.shown.media?.isSome := by
      rw [unsearched]
      rfl
    have fills := template?_of_unsearched unsearched
    have peered : p.template?.isSome = p.shown.media?.isSome := by
      rw [fills, unsearched]
      rfl
    refine .inr ⟨_, rebuild_of_unsearched a now h, ?_⟩
    cases fielded : c.hasField p.shown with
    | true =>
      refine ⟨rfl, bare, fielded.symm, peered, ?_, by simp, by simp⟩
      rintro f ⟨⟩
      exact fills.symm
    | false => exact ⟨rfl, bare, fielded.symm, peered, by simp, by simp, by simp⟩
  · have peered : p.template?.isSome = p.shown.media?.isSome := by
      rw [fills, searched]
      rfl
    have restored := Debounce.Sound.ofSaved a saved c.delayMs (now.after c.delayMs)
    refine .inr ⟨_, rebuild_of_searched a now h, ?_⟩
    cases fielded : c.hasField p.shown with
    | true =>
      refine ⟨rfl, searched.symm, fielded.symm, peered, ?_, ?_, ?_⟩
      · rintro f ⟨⟩
        exact fills.symm
      · rintro f ⟨⟩ d ⟨⟩
        exact query_eq_goal_request fills _ a now e.fieldText
      · rintro d ⟨⟩
        exact restored.requestAfter a now _ _ (Nat.le_refl _)
    | false =>
      refine ⟨rfl, searched.symm, fielded.symm, peered, by simp, by simp, ?_⟩
      rintro d ⟨⟩
      exact restored

theorem switchTo_cases (p : Panel) (a : Account) (c : SearchConfig) (now : Moment) (e : Entry) :
    (∃ refusal, p.switchTo a c now e = (.error refusal, p)) ∨
      ∃ built, p.switchTo a c now e = (.ok (), built) ∧
        built.toPane = { p.toPane with shown := e.shown } ∧
        built.Whole c (now.after c.delayMs) := by
  unfold switchTo
  rcases rebuild_cases { p with shown := e.shown } a c now e with
    ⟨refusal, h⟩ | ⟨built, h, pane, whole⟩
  · rw [h]
    exact .inl ⟨refusal, rfl⟩
  · rw [h]
    exact .inr ⟨built, rfl, pane, whole⟩

theorem ofEntry_cases (a : Account) (c : SearchConfig) (now : Moment) (e : Entry) :
    (∃ refusal, ofEntry a c now e = .error refusal) ∨
      ∃ opened, ofEntry a c now e = .ok opened ∧
        opened.toPane = (bare e).toPane ∧ opened.Whole c (now.after c.delayMs) := by
  unfold ofEntry
  rcases rebuild_cases (bare e) a c now e with ⟨refusal, h⟩ | ⟨built, h, pane, whole⟩
  · rw [h]
    exact .inl ⟨refusal, rfl⟩
  · rw [h]
    refine .inr ⟨_, rfl, pane, ?_⟩
    exact ⟨whole.searched, whole.fielded, whole.peered, whole.listener, whole.aim, whole.sound⟩

theorem typeText_of_field {p : Panel} {f : TextField Query} (h : p.field = some f) (a : Account)
    (now : Moment) (text : String) :
    p.typeText a now text =
      if f.value = text then p
      else
        { p with
          field := some { f with text := f.text.send text }
          search := match f.listener with
            | some template => p.search.map (·.request a now (template.withText text))
            | none => p.search } := by
  unfold typeText TextField.edit
  rw [h]
  by_cases same : f.value = text
  · simp only [same, if_true, ← h]
  · simp only [same, if_false]
    cases f.listener <;> rfl

theorem typeText_of_no_field {p : Panel} (h : p.field = none) (a : Account) (now : Moment)
    (text : String) : p.typeText a now text = p := by
  unfold typeText
  rw [h]

namespace Whole

variable {c : SearchConfig} {limit : Nat} {p : Panel}

theorem mono (h : p.Whole c limit) {later : Nat} (le : limit ≤ later) : p.Whole c later :=
  { h with sound := fun d hd => (h.sound d hd).mono le }

theorem exists_template (h : p.Whole c limit) {d : Debounce} (hd : p.search = some d) :
    ∃ template, p.template? = some template := by
  rw [← Option.isSome_iff_exists, h.peered, ← h.searched, hd]
  rfl

theorem exists_peer (h : p.Whole c limit) {kind : MediaKind} (shown : p.shown = .media kind) :
    ∃ peer, p.subject = .peer peer := by
  have peered := h.peered
  rw [shown] at peered
  obtain ⟨template, fills⟩ := Option.isSome_iff_exists.mp peered
  obtain ⟨-, peer, -, subject, -⟩ := template?_eq_some_iff.mp fills
  exact ⟨peer, subject⟩

theorem rebuild (h : p.Whole c limit) (a : Account) (now : Moment) (e : Entry)
    (inside : now.after c.delayMs ≤ limit) : (p.rebuild a c now e).2.Whole c limit := by
  rcases p.rebuild_cases a c now e with ⟨refusal, eq⟩ | ⟨built, eq, -, whole⟩
  · rw [eq]
    exact h
  · rw [eq]
    exact whole.mono inside

theorem switchTo (h : p.Whole c limit) (a : Account) (now : Moment) (e : Entry)
    (inside : now.after c.delayMs ≤ limit) : (p.switchTo a c now e).2.Whole c limit := by
  rcases p.switchTo_cases a c now e with ⟨refusal, eq⟩ | ⟨built, eq, -, whole⟩
  · rw [eq]
    exact h
  · rw [eq]
    exact whole.mono inside

theorem setSearchEnabled (h : p.Whole c limit) (enabled : Bool) :
    (p.setSearchEnabled enabled).Whole c limit :=
  ⟨h.searched, h.fielded, h.peered, h.listener, h.aim, h.sound⟩

theorem reach (h : p.Whole c limit) (a : Account) (time : Nat) :
    (p.reach a time).Whole c limit := by
  refine ⟨?_, h.fielded, h.peered, h.listener, ?_, ?_⟩
  · exact Option.isSome_map.trans h.searched
  · intro f hf d' hd'
    obtain ⟨d, hd, rfl⟩ := Option.map_eq_some_iff.mp hd'
    rw [(h.sound d hd).goal_reach]
    exact h.aim f hf d hd
  · intro d' hd'
    obtain ⟨d, hd, rfl⟩ := Option.map_eq_some_iff.mp hd'
    exact (h.sound d hd).reach a time

theorem typeText (h : p.Whole c limit) (a : Account) (now : Moment) (text : String)
    (inside : now.after c.delayMs ≤ limit) : (p.typeText a now text).Whole c limit := by
  cases hf : p.field with
  | none =>
    rw [typeText_of_no_field hf]
    exact h
  | some f =>
    rw [typeText_of_field hf]
    by_cases same : f.value = text
    · rw [if_pos same]
      exact h
    rw [if_neg same, h.listener f hf]
    have fielded : c.hasField p.shown = true := by rw [← h.fielded, hf]; rfl
    cases fills : p.template? with
    | none =>
      refine ⟨h.searched, fielded.symm, h.peered, ?_, ?_, h.sound⟩
      · rintro g ⟨⟩
        exact fills.symm
      · intro g _ d hd
        obtain ⟨template, some⟩ := h.exists_template hd
        rw [fills] at some
        cases some
    | some template =>
      refine ⟨Option.isSome_map.trans h.searched, fielded.symm, h.peered, ?_, ?_, ?_⟩
      · rintro g ⟨⟩
        exact fills.symm
      · rintro g ⟨⟩ d' hd'
        obtain ⟨d, hd, rfl⟩ := Option.map_eq_some_iff.mp hd'
        exact query_eq_goal_request fills d a now text
      · intro d' hd'
        obtain ⟨d, hd, rfl⟩ := Option.map_eq_some_iff.mp hd'
        refine (h.sound d hd).requestAfter a now _ _ ?_
        rw [(h.sound d hd).usual]
        exact inside

end Whole

end Panel

end PeerPanel
