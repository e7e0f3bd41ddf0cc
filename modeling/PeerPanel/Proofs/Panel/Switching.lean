import PeerPanel.Proofs.Panel.Admission

/-!
A panel that is switched to an entry is as one that is opened from it.

Field and search are built from the entry alone, whatever was in the panel before, and the marks of
the field are taken from it where there is a field. So two panels of the same pane that are built
anew from one entry match (`Matches`), and they match after every event that happens to both. What
was typed before a switch is never searched for after it: the search meets the query that the entry
has put aside, and those of the texts that it was told since.
-/

set_option autoImplicit false
set_option relaxedAutoImplicit false

namespace PeerPanel

open Search (Moment Query Debounce Saved)

private theorem Watched.update_update {α : Type} [DecidableEq α] (w : Watched α) (x : α) :
    (w.update x).update x = w.update x :=
  if_pos (w.value_update x)

namespace Search.Debounce

/-- A search in which only certain queries are applied or wait. -/
structure Among (allowed : Query → Prop) (d : Debounce) : Prop where
  applied : allowed d.applied
  waiting : ∀ q ∈ d.waiting, allowed q

namespace Among

variable {allowed : Query → Prop} {d : Debounce}

private theorem ofSaved {s : Saved} (h : allowed s.query) (a : Account) (delay : Nat) :
    (ofSaved a delay s).Among allowed :=
  ⟨h, by rintro q ⟨⟩⟩

theorem mono (h : d.Among allowed) {others : Query → Prop} (le : ∀ q, allowed q → others q) :
    d.Among others :=
  ⟨le _ h.applied, fun q hq => le q (h.waiting q hq)⟩

private theorem cancel (h : d.Among allowed) : d.cancel.Among allowed := ⟨h.applied, by rintro q ⟨⟩⟩

private theorem applyNow (a : Account) {q : Query} (hq : allowed q) :
    (d.applyNow a q).Among allowed :=
  ⟨hq, by rintro r ⟨⟩⟩

private theorem putOff (h : d.Among allowed) {q : Query} (hq : allowed q) (alarm : Alarm) :
    (d.putOff q alarm).Among allowed :=
  ⟨h.applied, by rintro r ⟨⟩; exact hq⟩

private theorem request (h : d.Among allowed) (a : Account) (now : Moment) {q : Query}
    (hq : allowed q) :
    (d.request a now q).Among allowed := by
  unfold Debounce.request requestAfter
  split
  · exact h.cancel
  · split
    · exact applyNow a hq
    · exact h.putOff hq _

private theorem ring (h : d.Among allowed) (a : Account) (alarm : Alarm) :
    (d.ring a alarm).Among allowed := by
  unfold Debounce.ring
  cases waiting : d.waiting with
  | none => exact ⟨h.applied, by rintro q ⟨⟩⟩
  | some q => exact applyNow a (h.waiting q waiting)

private theorem goOff (h : d.Among allowed) (a : Account) (alarm : Alarm) :
    (d.goOff a alarm).Among allowed := by
  unfold Debounce.goOff
  split
  · exact h.ring a alarm
  · exact h

private theorem reach (h : d.Among allowed) (a : Account) (time : Nat) :
    (d.reach a time).Among allowed := by
  unfold Debounce.reach
  generalize (d.running.filter (·.due ≤ time)).mergeSort (·.due ≤ ·.due) = alarms
  induction alarms generalizing d with
  | nil => exact h
  | cons alarm alarms ih => exact ih (h.goOff a alarm)

end Among

end Search.Debounce

namespace Panel

/-- Two panels that show the same section of the same subject with the same search, and the same
field under the same marks. Without a field the marks are of no use. -/
structure Matches (p q : Panel) : Prop where
  pane : p.toPane = q.toPane
  field : p.field = q.field
  search : p.search = q.search
  marks : p.field.isSome = true →
    p.searchEnabled.value = q.searchEnabled.value ∧ p.startsFocused = q.startsFocused

variable {p q : Panel} (a : Account) (c : SearchConfig) (now : Moment) (e : Entry)

private theorem searchFor_congr (pane : p.toPane = q.toPane) :
    p.searchFor a c e = q.searchFor a c e := by
  unfold searchFor
  rw [pane]

private theorem rebuild_of_searchFor {parts : Option (Debounce × Query)}
    (h : p.searchFor a c e = .ok parts) :
    p.rebuild a c now e = (.ok (),
      if c.hasField p.shown then
        { p with
          field := some { text := { value := e.fieldText }, listener := parts.map (·.2) }
          search := parts.map fun s => s.1.request a now (s.2.withText e.fieldText)
          searchEnabled := p.searchEnabled.update e.searchEnabled
          startsFocused := e.startsFocused }
      else { p with field := none, search := parts.map (·.1) }) := by
  cases parts with
  | none => exact rebuild_of_unsearched a now h
  | some parts => exact rebuild_of_searched a now h

theorem toPane_rebuild (p : Panel) : (p.rebuild a c now e).2.toPane = p.toPane := by
  rcases p.rebuild_cases a c now e with ⟨refusal, refused⟩ | ⟨built, ok, pane, -⟩
  · rw [refused]
  · rw [ok]
    exact pane

private theorem rebuild_matches (pane : p.toPane = q.toPane) :
    (∃ refusal, p.rebuild a c now e = (.error refusal, p) ∧
        q.rebuild a c now e = (.error refusal, q)) ∨
      ∃ p' q', p.rebuild a c now e = (.ok (), p') ∧ q.rebuild a c now e = (.ok (), q') ∧
        p'.Matches q' := by
  have same := searchFor_congr a c e pane
  have shown : p.shown = q.shown := by rw [pane]
  cases built : q.searchFor a c e with
  | error refusal =>
    exact .inl ⟨refusal, rebuild_of_refused a now (same.trans built),
      rebuild_of_refused a now built⟩
  | ok parts =>
    refine .inr ⟨_, _, rebuild_of_searchFor a c now e (same.trans built),
      rebuild_of_searchFor a c now e built, ?_⟩
    rw [shown]
    cases c.hasField q.shown with
    | true => exact ⟨pane, rfl, rfl, fun _ => by simp⟩
    | false => exact ⟨pane, rfl, rfl, by rintro ⟨⟩⟩

private theorem switchTo_matches (subject : p.subject = q.subject)
    (migrated : p.migrated = q.migrated) :
    (∃ refusal, p.switchTo a c now e = (.error refusal, p) ∧
        q.switchTo a c now e = (.error refusal, q)) ∨
      ∃ p' q', p.switchTo a c now e = (.ok (), p') ∧ q.switchTo a c now e = (.ok (), q') ∧
        p'.Matches q' := by
  have pane : ({ p with shown := e.shown } : Panel).toPane =
      ({ q with shown := e.shown } : Panel).toPane := by
    simp only [subject, migrated]
  unfold switchTo
  rcases rebuild_matches a c now e pane with ⟨refusal, hp, hq⟩ | ⟨p', q', hp, hq, alike⟩
  · rw [hp, hq]
    exact .inl ⟨refusal, rfl, rfl⟩
  · rw [hp, hq]
    exact .inr ⟨p', q', rfl, rfl, alike⟩

private theorem switchTo_matches_ofEntry (subject : p.subject = e.subject)
    (migrated : p.migrated = e.migrated) :
    (∃ refusal, p.switchTo a c now e = (.error refusal, p) ∧
        ofEntry a c now e = .error refusal) ∨
      ∃ switched opened, p.switchTo a c now e = (.ok (), switched) ∧
        ofEntry a c now e = .ok opened ∧ switched.Matches opened := by
  have pane : ({ p with shown := e.shown } : Panel).toPane = (bare e).toPane := by
    simp only [bare, subject, migrated]
  unfold switchTo ofEntry
  rcases rebuild_matches a c now e pane with ⟨refusal, hp, hq⟩ | ⟨p', q', hp, hq, alike⟩
  · rw [hp, hq]
    exact .inl ⟨refusal, rfl, rfl⟩
  · rw [hp, hq]
    exact .inr ⟨p', _, rfl, rfl, alike.pane, alike.field, alike.search, alike.marks⟩

namespace Matches

variable {c}

private theorem rebuild (h : p.Matches q) :
    (p.rebuild a c now e).2.Matches (q.rebuild a c now e).2 := by
  rcases rebuild_matches a c now e h.pane with ⟨refusal, hp, hq⟩ | ⟨p', q', hp, hq, alike⟩
  · rw [hp, hq]
    exact h
  · rw [hp, hq]
    exact alike

private theorem switchTo (h : p.Matches q) :
    (p.switchTo a c now e).2.Matches (q.switchTo a c now e).2 := by
  have subject : p.subject = q.subject := by rw [h.pane]
  have migrated : p.migrated = q.migrated := by rw [h.pane]
  rcases switchTo_matches a c now e subject migrated with
    ⟨refusal, hp, hq⟩ | ⟨p', q', hp, hq, alike⟩
  · rw [hp, hq]
    exact h
  · rw [hp, hq]
    exact alike

private theorem typeText (h : p.Matches q) (text : String) :
    (p.typeText a now text).Matches (q.typeText a now text) := by
  cases field : p.field with
  | none =>
    rw [typeText_of_no_field field, typeText_of_no_field (h.field.symm.trans field)]
    exact h
  | some f =>
    rw [typeText_of_field field, typeText_of_field (h.field.symm.trans field)]
    split
    · exact h
    · exact ⟨h.pane, rfl, by rw [h.search], fun _ => h.marks (by rw [field]; rfl)⟩

private theorem setSearchEnabled (h : p.Matches q) (enabled : Bool) :
    (p.setSearchEnabled enabled).Matches (q.setSearchEnabled enabled) :=
  ⟨h.pane, h.field, h.search, fun some =>
    ⟨by simp [Panel.setSearchEnabled], (h.marks some).2⟩⟩

private theorem reach (h : p.Matches q) (time : Nat) : (p.reach a time).Matches (q.reach a time) :=
  ⟨h.pane, h.field, congrArg (Option.map fun d : Debounce => d.reach a time) h.search, h.marks⟩

end Matches

/-- To build a panel twice from an entry is to build it once, at the later time. -/
private theorem rebuild_rebuild (p : Panel) (a b : Account) (before now : Moment) (e : Entry) :
    (p.rebuild b c before e).2.rebuild a c now e = p.rebuild a c now e := by
  cases first : p.searchFor b c e with
  | error refusal => rw [rebuild_of_refused b before first]
  | ok parts =>
    have first_built := rebuild_of_searchFor b c before e first
    cases second : p.searchFor a c e with
    | error refusal =>
      rw [searchFor_eq_error_iff.mpr (searchFor_eq_error_iff.mp second)] at first
      cases first
    | ok others =>
      have pane := p.toPane_rebuild b c before e
      have again := searchFor_congr a c e pane
      have shown : (p.rebuild b c before e).2.shown = p.shown := by rw [pane]
      rw [rebuild_of_searchFor a c now e (again.trans second),
        rebuild_of_searchFor a c now e second, shown, first_built]
      cases c.hasField p.shown with
      | true => simp [Watched.update_update]
      | false => rfl

theorem switchTo_eq_ok_iff {switched : Panel} :
    p.switchTo a c now e = (.ok (), switched) ↔
      { p with shown := e.shown }.rebuild a c now e = (.ok (), switched) := by
  unfold switchTo
  constructor
  · intro h
    split at h
    · next built => rw [built, h]
    · cases h
  · intro h
    rw [h]

private theorem switchTo_switchTo (p : Panel) (a b : Account) (before now : Moment) (e : Entry) :
    (p.switchTo b c before e).2.switchTo a c now e = p.switchTo a c now e := by
  rcases p.switchTo_cases b c before e with ⟨refusal, refused⟩ | ⟨first, ok, pane, -⟩
  · rw [refused]
  rcases p.switchTo_cases a c now e with ⟨refusal, refused⟩ | ⟨second, again, -⟩
  · have needs := switchTo_fst_eq_error_iff.mp (congrArg Prod.fst refused)
    have too : (p.switchTo b c before e).1 = .error refusal := switchTo_fst_eq_error_iff.mpr needs
    rw [ok] at too
    cases too
  · have shows : { first with shown := e.shown } = first := by
      have shown : first.shown = e.shown := by rw [pane]
      rw [← shown]
    have twice := rebuild_rebuild c { p with shown := e.shown } a b before now e
    rw [(switchTo_eq_ok_iff b c before e).mp ok, (switchTo_eq_ok_iff a c now e).mp again] at twice
    rw [ok, again, switchTo_eq_ok_iff, shows]
    exact twice

private theorem exists_saved_of_searchFor {d : Debounce} {template : Query}
    (h : p.searchFor a c e = .ok (some (d, template))) :
    ∃ saved, e.search = .ok saved ∧ d = .ofSaved a c.delayMs saved ∧
      p.template? = some template := by
  rcases p.searchFor_cases a c e with ⟨refusal, refused⟩ | ⟨-, none⟩ | ⟨-, own, searched, fills, -⟩
  · rw [refused] at h
    cases h
  · rw [none] at h
    cases h
  · rcases e.search_cases with ⟨-, saved, -, -, search⟩ | ⟨other, -⟩
    · rw [searchFor_of_template? fills a c search] at h
      cases h
      exact ⟨saved, search, rfl, fills⟩
    · rw [searchFor_eq_error_iff.mpr ⟨searched, .inl ⟨other, rfl⟩⟩] at h
      cases h

theorem query_congr (pane : p.toPane = q.toPane) (text : String) : p.query text = q.query text := by
  unfold query
  rw [pane]

theorem search_rebuild_among {built : Panel} (h : p.rebuild a c now e = (.ok (), built)) :
    ∀ d ∈ built.search,
      d.Among fun q => (∃ saved, e.search = .ok saved ∧ q = saved.query) ∨
        built.query e.fieldText = .ok q := by
  intro d hd
  have pane : built.toPane = p.toPane := by
    have kept := p.toPane_rebuild a c now e
    rwa [h] at kept
  rw [query_congr pane]
  cases parts : p.searchFor a c e with
  | error refusal =>
    rw [rebuild_of_refused a now parts] at h
    cases h
  | ok needed =>
    rw [rebuild_of_searchFor a c now e parts, Prod.mk.injEq] at h
    obtain ⟨-, rfl⟩ := h
    cases needed with
    | none => cases fielded : c.hasField p.shown <;> simp [fielded] at hd
    | some s =>
      obtain ⟨saved, search, restored, fills⟩ := exists_saved_of_searchFor a c e parts
      have put_aside : (Debounce.ofSaved a c.delayMs saved).Among fun q =>
          (∃ saved, e.search = .ok saved ∧ q = saved.query) ∨ p.query e.fieldText = .ok q :=
        .ofSaved (.inl ⟨saved, search, rfl⟩) a c.delayMs
      rw [← restored] at put_aside
      cases fielded : c.hasField p.shown with
      | true =>
        rw [fielded] at hd
        cases hd
        exact put_aside.request a now (.inr (query_of_template? fills e.fieldText))
      | false =>
        rw [fielded] at hd
        cases hd
        exact put_aside

/-- Whether an event builds the panel anew. -/
def Event.isSwitch : Event → Bool
  | switchTo _ | rebuild _ => true
  | _ => false

namespace Scene

variable {c : SearchConfig}

/-- Scenes at one moment with one account, whose panels match. -/
structure Alike (s t : Scene) : Prop where
  panel : s.panel.Matches t.panel
  account : s.account = t.account
  now : s.now = t.now

namespace Alike

variable {s t : Scene}

private theorem panelAfter (h : s.Alike t) (e : Event) :
    (s.panelAfter c e).Matches (t.panelAfter c e) := by
  unfold Scene.panelAfter
  rw [h.account, h.now]
  cases e with
  | switchTo e => exact h.panel.switchTo t.account t.now e
  | rebuild e => exact h.panel.rebuild t.account t.now e
  | typeText text => exact h.panel.typeText t.account t.now text
  | setSearchEnabled enabled => exact h.panel.setSearchEnabled enabled
  | account a => exact h.panel
  | wait ms => exact h.panel.reach t.account (t.now.time + ms)

private theorem play (h : s.Alike t) (e : Event) : (s.play c e).Alike (t.play c e) where
  panel := h.panelAfter e
  account := by cases e <;> simp [Scene.play, accountAfter, h.account]
  now := by rw [Scene.play, Scene.play, h.now]

private theorem run (h : s.Alike t) (later : List Event) :
    (s.run c later).Alike (t.run c later) := by
  induction later generalizing s t with
  | nil => exact h
  | cons e later ih => exact ih (h.play e)

end Alike

variable {s : Scene}

theorem toPane_panelAfter {e : Event} (stays : e.isSwitch = false) :
    (s.panelAfter c e).toPane = s.panel.toPane := by
  cases e with
  | switchTo e => cases stays
  | rebuild e => cases stays
  | typeText text =>
    rw [panelAfter]
    cases field : s.panel.field with
    | none => rw [typeText_of_no_field field]
    | some f =>
      rw [typeText_of_field field]
      split <;> rfl
  | _ => rfl

theorem search_panelAfter_among {allowed : Query → Prop} {limit : Nat}
    (whole : s.panel.Whole c limit) (among : ∀ d ∈ s.panel.search, d.Among allowed) {e : Event}
    (stays : e.isSwitch = false)
    (told : ∀ text q, e = .typeText text → s.panel.query text = .ok q → allowed q) :
    ∀ d ∈ (s.panelAfter c e).search, d.Among allowed := by
  cases e with
  | switchTo e => cases stays
  | rebuild e => cases stays
  | typeText text =>
    rw [panelAfter]
    cases field : s.panel.field with
    | none =>
      rw [typeText_of_no_field field]
      exact among
    | some f =>
      rw [typeText_of_field field, whole.listener f field]
      split
      · exact among
      cases fills : s.panel.template? with
      | none => exact among
      | some template =>
        intro d' hd'
        obtain ⟨d, hd, rfl⟩ := Option.map_eq_some_iff.mp hd'
        exact (among d hd).request _ _ (told text _ rfl (query_of_template? fills text))
  | setSearchEnabled enabled => exact among
  | account a => exact among
  | wait ms =>
    intro d' hd'
    obtain ⟨d, hd, rfl⟩ := Option.map_eq_some_iff.mp hd'
    exact (among d hd).reach _ _

private theorem search_run_among {allowed : Query → Prop} {later : List Event} {s : Scene}
    (whole : s.panel.Whole c (s.now.after c.delayMs))
    (among : ∀ d ∈ s.panel.search, d.Among allowed) (stays : ∀ ev ∈ later, ev.isSwitch = false)
    (told : ∀ text q, .typeText text ∈ later → s.panel.query text = .ok q → allowed q) :
    ∀ d ∈ (s.run c later).panel.search, d.Among allowed := by
  induction later generalizing s with
  | nil => exact among
  | cons e later ih =>
    have still := stays e List.mem_cons_self
    have pane : (s.play c e).panel.toPane = s.panel.toPane := toPane_panelAfter still
    refine ih ?_ ?_ (fun ev mem => stays ev (List.mem_cons_of_mem e mem)) ?_
    · exact (whole_panelAfter whole e).mono (s.now.after_le_after_next e.duration c.delayMs)
    · refine search_panelAfter_among whole among still ?_
      rintro text q rfl
      exact told text q List.mem_cons_self
    · intro text q mem asks
      rw [query_congr pane] at asks
      exact told text q (List.mem_cons_of_mem e mem) asks

/-- A panel that is switched to an entry about its own subject is as one that is opened from the
entry: it is refused alike, the two match after all that happens later, and an earlier switch to the
entry makes no difference. No query from before the switch is met after it. -/
theorem switched_as_opened (s : Scene) {e : Entry} (subject : e.subject = s.panel.subject)
    (migrated : e.migrated = s.panel.migrated) (c : SearchConfig) :
    (s.panel.switchTo s.account c s.now e).1 = (ofEntry s.account c s.now e).map (fun _ => ()) ∧
    (∀ opened, ofEntry s.account c s.now e = .ok opened → ∀ later,
      ((s.play c (.switchTo e)).run c later).panel.Matches
        (run c ⟨opened, s.account, s.now.next 0⟩ later).panel) ∧
    (∀ b before, (s.panel.switchTo b c before e).2.switchTo s.account c s.now e =
      s.panel.switchTo s.account c s.now e) ∧
    ((s.panel.switchTo s.account c s.now e).1 = .ok () →
      ∀ later, (∀ ev ∈ later, ev.isSwitch = false) →
        ∀ d ∈ ((s.play c (.switchTo e)).run c later).panel.search,
          d.Among fun q => (∃ saved, e.search = .ok saved ∧ q = saved.query) ∨
            ∃ text, (text = e.fieldText ∨ .typeText text ∈ later) ∧
              (s.play c (.switchTo e)).panel.query text = .ok q) := by
  refine ⟨?_, ?_, fun b before => switchTo_switchTo c s.panel s.account b before s.now e, ?_⟩
  · rcases switchTo_matches_ofEntry s.account c s.now e subject.symm migrated.symm with
      ⟨refusal, switching, opening⟩ | ⟨switched, opened, switching, opening, -⟩
    · rw [switching, opening]
      rfl
    · rw [switching, opening]
      rfl
  · intro fresh opens later
    rcases switchTo_matches_ofEntry s.account c s.now e subject.symm migrated.symm with
      ⟨refusal, switching, opening⟩ | ⟨switched, opened, switching, opening, alike⟩
    · rw [opening] at opens
      cases opens
    · obtain rfl : opened = fresh := Except.ok.inj (opening.symm.trans opens)
      have start : (s.play c (.switchTo e)).Alike ⟨opened, s.account, s.now.next 0⟩ := by
        refine ⟨?_, rfl, rfl⟩
        rw [play, panelAfter, switching]
        exact alike
      exact (start.run later).panel
  · intro ok later stays
    rcases s.panel.switchTo_cases s.account c s.now e with
      ⟨refusal, refused⟩ | ⟨switched, switching, -, whole⟩
    · rw [refused] at ok
      cases ok
    have panel : (s.play c (.switchTo e)).panel = switched := by rw [play, panelAfter, switching]
    have built := (switchTo_eq_ok_iff s.account c s.now e).mp switching
    refine search_run_among ?_ ?_ stays ?_
    · rw [panel]
      exact whole.mono (s.now.after_le_after_next 0 c.delayMs)
    · rw [panel]
      intro d hd
      refine (search_rebuild_among s.account c s.now e built d hd).mono ?_
      rintro q (saved | text)
      · exact .inl saved
      · exact .inr ⟨e.fieldText, .inl rfl, text⟩
    · intro text q mem asks
      exact .inr ⟨text, .inr mem, asks⟩

/-- The files of `strayScene` with a draft in the field that is not yet searched for. -/
def draftScene : Scene := strayScene.run {} [.typeText "draft"]

/-- Photos take the place of the draft, which is never searched for: not when its delay is over, and
not when another text is typed. -/
theorem draft_forgotten_by_photos :
    (∃ d ∈ draftScene.panel.search, ∃ q ∈ d.waiting, q.text = "draft") ∧
    ∃ opened, ofEntry {} {} ⟨0, 2⟩ (.media ⟨2⟩ (some ⟨1⟩) .photo) = .ok opened ∧
      (∀ later, ((draftScene.play {} (.switchTo (.media ⟨2⟩ (some ⟨1⟩) .photo))).run {}
          later).panel.Matches (run {} ⟨opened, {}, ⟨0, 3⟩⟩ later).panel) ∧
      ∃ d ∈ ((draftScene.play {} (.switchTo (.media ⟨2⟩ (some ⟨1⟩) .photo))).run {}
          [.wait 300, .typeText "cat"]).panel.search,
        d.applied.text ≠ "draft" ∧ ∀ q ∈ d.waiting, q.text ≠ "draft" := by
  obtain ⟨-, after, -, among⟩ :=
    switched_as_opened draftScene (e := .media ⟨2⟩ (some ⟨1⟩) .photo) rfl rfl {}
  refine ⟨⟨_, rfl, _, rfl, rfl⟩, _, rfl, after _ rfl, _, rfl, ?_⟩
  have no_draft : ∀ q : Query,
      ((∃ saved, (Entry.media ⟨2⟩ (some ⟨1⟩) .photo).search = .ok saved ∧ q = saved.query) ∨
        ∃ text, (text = "" ∨ .typeText text ∈ [Event.wait 300, .typeText "cat"]) ∧
          (draftScene.play {} (.switchTo (.media ⟨2⟩ (some ⟨1⟩) .photo))).panel.query text =
            .ok q) → q.text ≠ "draft" := by
    rintro q (⟨saved, search, rfl⟩ | ⟨text, told, asks⟩)
    · cases search
      decide
    · obtain ⟨kind, peer, -, -, rfl⟩ := query_eq_ok_iff.mp asks
      rcases told with rfl | told
      · simp
      · simp at told
        simp [told]
  obtain ⟨applied, waiting⟩ := among rfl [.wait 300, .typeText "cat"] (by decide) _ rfl
  exact ⟨no_draft _ applied, fun q hq => no_draft q (waiting q hq)⟩

end Scene

end Panel

end PeerPanel
