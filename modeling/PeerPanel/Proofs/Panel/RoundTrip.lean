import PeerPanel.Proofs.Panel.Scene

/-!
A panel that is put into an entry and opened again from it.

The entry takes over the text of the field and the search, the waiting query in the place of the
applied one. A panel that is opened from it begins with the search at that query, and then the field
tells the search its text, which asks for the same query once more. That changes nothing, because
in every panel that is reached the search is heading for the text of the field.
-/

set_option autoImplicit false
set_option relaxedAutoImplicit false

namespace PeerPanel

open Search (Moment Query Debounce Saved TextField)

namespace Search.Debounce

variable {d : Debounce} {delay limit : Nat}

theorem query_save (d : Debounce) : d.save.query = d.goal := by
  unfold save goal
  cases d.waiting <;> rfl

theorem requestAfter_ofSaved (a b : Account) (now : Moment) (s : Saved) (own : Nat) :
    (ofSaved a delay s).requestAfter b now s.query own = ofSaved a delay s :=
  if_pos rfl

private theorem Sound.save_ofSaved_save (h : d.Sound delay limit) (a : Account) (own : Nat) :
    (d.waiting = none → ∃ hits, d.finder.hits? d.applied = some hits ∧
      (Debounce.ofSaved a own d.save).save = hits.saved d.applied) ∧
    ∀ q, d.waiting = some q → (Debounce.ofSaved a own d.save).save = (run a q).saved q := by
  constructor
  · intro idle
    obtain ⟨hits, known⟩ := Option.isSome_iff_exists.mp h.remembered
    have put : d.save = hits.saved d.applied := by
      rw [save, idle]
      exact Finder.save_of_hits? known
    refine ⟨hits, known, ?_⟩
    rw [put]
    exact Finder.save_restore_of_peerHits a (hits.saved d.applied) rfl
  · intro q waits
    have put : d.save = { query := q } := by rw [save, waits]
    rw [put]
    exact Finder.save_restore_of_no_peerHits a { query := q } rfl

end Search.Debounce

private theorem Entry.exists_content_of_shown_media {e : Entry} {kind : MediaKind}
    (h : e.shown = .media kind) : ∃ old, e.content = .media kind old := by
  rw [Entry.shown] at h
  cases content : e.content with
  | media other old =>
    rw [content] at h
    cases h
    exact ⟨old, rfl⟩
  | _ =>
    rw [content] at h
    cases h

namespace Panel

variable {c : SearchConfig} {limit : Nat} {p : Panel}

private theorem ofEntry_of_rebuild {a : Account} {now : Moment} {e : Entry} {built : Panel}
    (h : (bare e).rebuild a c now e = (.ok (), built)) :
    ofEntry a c now e = .ok (built.beginWatch a now.step) := by
  unfold ofEntry
  rw [h]

private theorem noteField_of_field {f : TextField Query} (h : p.field = some f) (e : Entry) :
    p.noteField e = { e with fieldText := f.value, searchEnabled := p.searchEnabled.value } := by
  rw [noteField, h]

private theorem bare_noteField (p : Panel) (e : Entry) : bare (p.noteField e) = bare e := by
  unfold noteField
  cases p.field <;> rfl

private theorem content_noteField (p : Panel) (e : Entry) :
    (p.noteField e).content = e.content := by
  unfold noteField
  cases p.field <;> rfl

theorem saveInto_of_no_search (h : p.search = none) (e : Entry) :
    p.saveInto e = (.ok (), p.noteField e) := by
  unfold saveInto savedFor
  rw [h]

theorem saveInto_of_search {d : Debounce} (hd : p.search = some d) {e : Entry} {kind : MediaKind}
    {old : Saved} (held : e.content = .media kind old) :
    p.saveInto e = (.ok (), { p.noteField e with content := .media kind d.save }) := by
  unfold saveInto savedFor Entry.search
  rw [hd, held]
  simp only [Except.map, Entry.setSearch, content_noteField, held]

private theorem Whole.ofEntry (h : p.Whole c limit) {stored : Entry}
    (pane : (bare stored).toPane = p.toPane)
    (noted : ∀ f ∈ p.field,
      stored.fieldText = f.value ∧ stored.searchEnabled = p.searchEnabled.value)
    (held : ∀ d ∈ p.search, stored.search = .ok d.save) (a : Account) (now : Moment) :
    ∃ fresh, Panel.ofEntry a c now stored = .ok fresh ∧
      fresh.field.map (·.value) = p.field.map (·.value) ∧
      (p.field.isSome = true → fresh.searchEnabled.value = p.searchEnabled.value) ∧
      fresh.search = p.search.map fun d => .ofSaved a c.delayMs d.save := by
  have shown : (bare stored).shown = p.shown := congrArg Pane.shown pane
  have fielded : c.hasField (bare stored).shown = p.field.isSome := by rw [shown, h.fielded]
  cases hd : p.search with
  | none =>
    have unsearched : (bare stored).shown.media? = none := by
      rw [shown, ← Option.isNone_iff_eq_none, ← Option.not_isSome, ← h.searched, hd]
      rfl
    have built := rebuild_of_unsearched a now (searchFor_of_unsearched unsearched a c stored)
    rw [fielded] at built
    refine ⟨_, ofEntry_of_rebuild built, ?_⟩
    cases hf : p.field with
    | none => exact ⟨rfl, by simp, rfl⟩
    | some f =>
      obtain ⟨text, enabled⟩ := noted f hf
      exact ⟨congrArg some text, fun _ => (Watched.value_update _ _).trans enabled, rfl⟩
  | some d =>
    obtain ⟨template, fills⟩ := h.exists_template hd
    have same : (bare stored).template? = some template := (template?_congr pane).trans fills
    have built := rebuild_of_searched a now (searchFor_of_template? same a c (held d hd))
    rw [fielded] at built
    refine ⟨_, ofEntry_of_rebuild built, ?_⟩
    cases hf : p.field with
    | none => exact ⟨rfl, by simp, rfl⟩
    | some f =>
      obtain ⟨text, enabled⟩ := noted f hf
      refine ⟨congrArg some text, fun _ => (Watched.value_update _ _).trans enabled, ?_⟩
      have asked : template.withText stored.fieldText = d.save.query := by
        have aim := h.aim f hf d hd
        rw [query_of_template? fills, Except.ok.injEq] at aim
        rw [text, aim, Debounce.query_save]
      have kept : (Debounce.ofSaved a c.delayMs d.save).request a now
          (template.withText stored.fieldText) = .ofSaved a c.delayMs d.save := by
        rw [asked]
        exact Debounce.requestAfter_ofSaved a a now d.save c.delayMs
      exact congrArg some kept

private theorem Whole.saveInto (h : p.Whole c limit) {e : Entry} (shown : e.shown = p.shown) :
    ∃ stored, p.saveInto e = (.ok (), stored) ∧ (bare stored).toPane = (bare e).toPane ∧
      (∀ f ∈ p.field,
        stored.fieldText = f.value ∧ stored.searchEnabled = p.searchEnabled.value) ∧
      ∀ d ∈ p.search, stored.search = .ok d.save := by
  cases hd : p.search with
  | none =>
    refine ⟨_, saveInto_of_no_search hd e, by rw [bare_noteField], ?_, by simp⟩
    intro f hf
    rw [noteField_of_field hf]
    exact ⟨rfl, rfl⟩
  | some d =>
    obtain ⟨template, fills⟩ := h.exists_template hd
    obtain ⟨kind, peer, media, -, -⟩ := template?_eq_some_iff.mp fills
    obtain ⟨old, held⟩ := Entry.exists_content_of_shown_media (shown.trans media)
    refine ⟨_, saveInto_of_search hd held, ?_, ?_, ?_⟩
    · have noted := congrArg Panel.toPane (bare_noteField e (p := p))
      have kept : e.shown = .media kind := shown.trans media
      rw [← noted]
      simp only [bare, Pane.mk.injEq, true_and]
      rw [Entry.shown, Entry.shown, content_noteField, held]
      rfl
    · intro f hf
      rw [noteField_of_field hf]
      exact ⟨rfl, rfl⟩
    · rintro d' ⟨⟩
      rfl

namespace Scene

variable {s : Scene}

/-- A panel that is put into an entry of the shown section can be opened again from it. The field
has the text and the flag that it had, and the search is at the query that it was heading for, with
nothing waiting: with the hits that were remembered, or with those of a search if the query was
still waiting. -/
theorem reopened_from_saved (reached : Reached c s) (e : Entry)
    (subject : e.subject = s.panel.subject) (migrated : e.migrated = s.panel.migrated)
    (shown : e.shown = s.panel.shown) (now : Moment) :
    ∃ stored fresh, s.panel.saveInto e = (.ok (), stored) ∧
      ofEntry s.account c now stored = .ok fresh ∧
      fresh.field.map (·.value) = s.panel.field.map (·.value) ∧
      (s.panel.field.isSome = true →
        fresh.searchEnabled.value = s.panel.searchEnabled.value) ∧
      fresh.search.isSome = s.panel.search.isSome ∧
      ∀ d ∈ s.panel.search, ∀ d' ∈ fresh.search,
        d'.waiting = none ∧ d'.applied = d.waiting.getD d.applied ∧
        (d.waiting = none → ∃ hits, d.finder.hits? d.applied = some hits ∧
          d'.save = hits.saved d.applied) ∧
        ∀ q, d.waiting = some q → d'.save = (Search.run s.account q).saved q := by
  have whole := reached.whole
  obtain ⟨stored, saves, kept, noted, held⟩ := whole.saveInto shown
  have pane : (bare stored).toPane = s.panel.toPane := by
    rw [kept, bare, subject, migrated, shown]
  obtain ⟨fresh, opens, field, enabled, search⟩ := whole.ofEntry pane noted held s.account now
  refine ⟨stored, fresh, saves, opens, field, enabled, by rw [search, Option.isSome_map], ?_⟩
  intro d hd d' hd'
  obtain ⟨d₀, hd₀, rfl⟩ := Option.map_eq_some_iff.mp (search ▸ hd')
  obtain rfl : d₀ = d := Option.some.inj (hd₀.symm.trans hd)
  obtain ⟨found, searched⟩ := (whole.sound d₀ hd).save_ofSaved_save s.account c.delayMs
  exact ⟨rfl, Debounce.query_save d₀, found, searched⟩

/-- A text that is still waiting when the panel is left is the applied one when it is opened
again. -/
theorem stray_search_reopened :
    ∃ stored fresh,
      strayScene.panel.saveInto (.media ⟨2⟩ (some ⟨1⟩) .file) = (.ok (), stored) ∧
      ofEntry {} {} ⟨10, 2⟩ stored = .ok fresh ∧
      fresh.field.map (·.value) = some "plan" ∧
      ∃ d ∈ fresh.search, d.waiting = none ∧ d.applied = ⟨.file, ⟨2⟩, some ⟨1⟩, "plan"⟩ := by
  obtain ⟨stored, fresh, saves, opens, field, -, searched, agrees⟩ :=
    reopened_from_saved reached_strayScene (.media ⟨2⟩ (some ⟨1⟩) .file) rfl rfl rfl ⟨10, 2⟩
  obtain ⟨d, hd⟩ := Option.isSome_iff_exists.mp searched
  obtain ⟨idle, applied, -, -⟩ := agrees _ rfl d hd
  exact ⟨stored, fresh, saves, opens, field, d, hd, idle, applied⟩

end Scene

end Panel

end PeerPanel
