import PeerPanel.Proofs.Panel.RoundTrip

/-!
What a panel admits, and what it refuses.

An entry is made for a section, and its subject is of the sort that has such a section
(`Entry.Made.suits`). A panel is refused an operation only for want of a media list in the entry or
of a peer in its own subject, and whatever is refused is left as it was: `refused_exactly`. To be
admitted, an entry has to be about the same peer, or the settings of the same one, as the panel.
Nothing tells the downloads and the polls apart that way (`admits_iff`).
-/

set_option autoImplicit false
set_option relaxedAutoImplicit false

namespace PeerPanel

open Search (Moment Query Debounce Saved)

namespace Subject

/-- Whether a subject has sections of a sort. -/
def suits : Subject → Section → Bool
  | .peer _, .profile | .peer _, .media _ | .peer _, .commonGroups | .peer _, .members => true
  | .settings _, .settings _ => true
  | .downloads, .downloads => true
  | .poll _ _, .pollResults => true
  | _, _ => false

/-- Whether a subject belongs to a peer: the peer itself, or its settings. -/
def isOwned (s : Subject) : Bool := s.peer?.isSome || s.settingsOwner?.isSome

private theorem same_owner_iff {s t : Subject} :
    s.peer? = t.peer? ∧ s.settingsOwner? = t.settingsOwner? ↔
      s = t ∨ s.isOwned = false ∧ t.isOwned = false := by
  cases s <;> cases t <;> simp [peer?, settingsOwner?, isOwned]

private theorem isSome_peer?_of_suits_media {s : Subject} {kind : MediaKind}
    (suits : s.suits (.media kind) = true) : s.peer?.isSome = true := by
  cases s with
  | peer id => rfl
  | _ => cases suits

end Subject

namespace Entry

def isMedia (e : Entry) : Bool := e.shown.media?.isSome

/-- The entries that can be made: for a section, and after that with other marks for the field and
another search put aside. -/
inductive Made : Entry → Prop
  | profile (peer : PeerId) (migrated : Option PeerId) : Made (.profile peer migrated)
  | media (peer : PeerId) (migrated : Option PeerId) (kind : MediaKind) :
      Made (.media peer migrated kind)
  | commonGroups (user : PeerId) : Made (.commonGroups user)
  | members (peer : PeerId) (migrated : Option PeerId) : Made (.members peer migrated)
  | settings (owner : PeerId) (page : SettingsPage) : Made (.settings owner page)
  | downloads : Made .downloads
  | pollResults (id : PollId) (context : FullId) : Made (.pollResults id context)
  | marked {e : Entry} (fieldText : String) (searchEnabled startsFocused : Bool) :
      Made e → Made { e with fieldText, searchEnabled, startsFocused }
  | searched {e stored : Entry} {s : Saved} : Made e → e.setSearch s = .ok stored → Made stored

variable {e : Entry}

theorem search_cases (e : Entry) :
    (∃ kind saved, e.content = .media kind saved ∧ e.shown = .media kind ∧ e.search = .ok saved) ∨
      (e.isMedia = false ∧ e.search = .error (.entryMismatch .media e.shown.kind)) := by
  unfold search isMedia Entry.shown
  cases content : e.content with
  | media kind saved => exact .inl ⟨kind, saved, rfl, rfl, rfl⟩
  | _ => exact .inr ⟨rfl, rfl⟩

private theorem isMedia_of_shown {kind : MediaKind} (shown : e.shown = .media kind) :
    e.isMedia = true := by
  rw [isMedia, shown]
  rfl

private theorem shown_of_setSearch {s : Saved} {stored : Entry} (h : e.setSearch s = .ok stored) :
    stored.subject = e.subject ∧ stored.shown = e.shown := by
  rw [setSearch] at h
  cases content : e.content with
  | media kind old =>
    rw [content] at h
    cases h
    exact ⟨rfl, by rw [Entry.shown, Entry.shown, content]; rfl⟩
  | _ =>
    rw [content] at h
    cases h

namespace Made

theorem suits (made : e.Made) : e.subject.suits e.shown = true := by
  induction made with
  | marked _ _ _ _ ih => exact ih
  | searched _ stored ih =>
    obtain ⟨subject, shown⟩ := shown_of_setSearch stored
    rw [subject, shown]
    exact ih
  | _ => rfl

private theorem isSome_peer? (made : e.Made) (media : e.isMedia = true) :
    e.subject.peer?.isSome = true := by
  rcases e.search_cases with ⟨kind, saved, -, shown, -⟩ | ⟨other, -⟩
  · have suits := made.suits
    rw [shown] at suits
    exact Subject.isSome_peer?_of_suits_media suits
  · rw [media] at other
    cases other

end Made

end Entry

namespace Panel

variable {p : Panel} {a : Account} {c : SearchConfig} {now : Moment} {e : Entry}
  {refusal : PanelError}

section Outcomes

theorem searchFor_eq_error_iff :
    p.searchFor a c e = .error refusal ↔
      p.shown.media?.isSome = true ∧
        (e.isMedia = false ∧ refusal = .entryMismatch .media e.shown.kind ∨
          e.isMedia = true ∧ p.subject.peer? = none ∧ refusal = .notAPeer p.subject) := by
  cases shown : p.shown with
  | media kind =>
    unfold searchFor Pane.peer
    rw [shown]
    rcases e.search_cases with ⟨held, saved, -, media, search⟩ | ⟨other, search⟩
    · rw [search, Entry.isMedia_of_shown media]
      cases subject : p.subject.peer? with
      | none => simp [Section.media?, bind, Except.bind, eq_comm]
      | some peer => simp [Section.media?, bind, Except.bind, pure, Except.pure]
    · rw [search, other]
      simp [Section.media?, bind, Except.bind, eq_comm]
  | _ =>
    rw [searchFor_of_unsearched (by rw [shown]; rfl)]
    simp [Section.media?]

theorem rebuild_fst_eq_error_iff :
    (p.rebuild a c now e).1 = .error refusal ↔ p.searchFor a c e = .error refusal := by
  cases built : p.searchFor a c e with
  | error other => simp [rebuild_of_refused a now built]
  | ok parts =>
    cases parts with
    | none => simp [rebuild_of_unsearched a now built]
    | some parts => simp [rebuild_of_searched a now built]

private theorem switchTo_fst (p : Panel) (a : Account) (c : SearchConfig) (now : Moment)
    (e : Entry) :
    (p.switchTo a c now e).1 = ({ p with shown := e.shown }.rebuild a c now e).1 := by
  unfold switchTo
  split
  · next h => rw [h]
  · next h => rw [h]

/-- A panel can be switched to every entry but to a media list, and to these if it is one of a
peer. -/
theorem switchTo_fst_eq_error_iff :
    (p.switchTo a c now e).1 = .error refusal ↔
      refusal = .notAPeer p.subject ∧ e.isMedia = true ∧ p.subject.peer? = none := by
  rw [switchTo_fst, rebuild_fst_eq_error_iff, searchFor_eq_error_iff]
  simp only [Entry.isMedia]
  cases e.shown.media? <;> simp [and_comm]

private theorem saveInto_fst_eq_error_iff :
    (p.saveInto e).1 = .error refusal ↔
      refusal = .entryMismatch .media e.shown.kind ∧ p.search.isSome = true ∧
        e.isMedia = false := by
  cases search : p.search with
  | none => simp [saveInto_of_no_search search]
  | some d =>
    rcases e.search_cases with ⟨kind, saved, content, media, -⟩ | ⟨other, refused⟩
    · simp [saveInto_of_search search content, Entry.isMedia_of_shown media]
    · simp [saveInto, savedFor, search, refused, other, Except.map, eq_comm]

private theorem saveInto_snd_of_refused (h : (p.saveInto e).1 = .error refusal) :
    (p.saveInto e).2 = e := by
  obtain ⟨-, searched, other⟩ := saveInto_fst_eq_error_iff.mp h
  obtain ⟨d, search⟩ := Option.isSome_iff_exists.mp searched
  rcases e.search_cases with ⟨kind, saved, -, media, -⟩ | ⟨-, refused⟩
  · rw [Entry.isMedia_of_shown media] at other
    cases other
  · simp [saveInto, savedFor, search, refused, Except.map]

end Outcomes

section Admitted

theorem admits_iff :
    p.admits e = true ↔
      e.migrated = p.migrated ∧
        (e.subject = p.subject ∨ e.subject.isOwned = false ∧ p.subject.isOwned = false) := by
  rw [← Subject.same_owner_iff]
  simp only [admits, Bool.and_eq_true, decide_eq_true_eq]
  exact and_assoc.trans and_left_comm

private theorem switchTo_of_admitted (made : e.Made) (admitted : p.admits e = true) (a : Account)
    (c : SearchConfig) (now : Moment) :
    ∃ switched, p.switchTo a c now e = (.ok (), switched) ∧
      switched.toPane = { p.toPane with shown := e.shown } := by
  rcases p.switchTo_cases a c now e with ⟨refusal, refused⟩ | ⟨switched, ok, pane, -⟩
  · obtain ⟨-, media, no_peer⟩ := switchTo_fst_eq_error_iff.mp (congrArg Prod.fst refused)
    have peer : e.subject.peer? = p.subject.peer? := by
      rcases (admits_iff.mp admitted).2 with same | ⟨free, -⟩
      · rw [same]
      · rw [Subject.isOwned, made.isSome_peer? media] at free
        cases free
    have some := made.isSome_peer? media
    rw [peer, no_peer] at some
    cases some
  · exact ⟨switched, ok, pane⟩

/-- An entry is admitted if it is about the subject of the panel, and also if neither of the two
subjects belongs to a peer. Whatever is admitted can be shown. The panel is then as it would be in
the entry if one of the subjects belongs to a peer, and else it keeps a subject of its own. -/
theorem admitted_of_subject_or_unowned (p : Panel) (made : e.Made) (a : Account)
    (c : SearchConfig) (now : Moment) :
    (p.admits e = true ↔
      e.migrated = p.migrated ∧
        (e.subject = p.subject ∨ e.subject.isOwned = false ∧ p.subject.isOwned = false)) ∧
    (p.admits e = true → ∃ switched, p.switchTo a c now e = (.ok (), switched) ∧
      switched.toPane = { p.toPane with shown := e.shown } ∧
      (e.subject.isOwned = true ∨ p.subject.isOwned = true →
        switched.toPane = (bare e).toPane ∧ switched.subject.suits switched.shown = true)) := by
  refine ⟨admits_iff, fun admitted => ?_⟩
  obtain ⟨switched, ok, pane⟩ := switchTo_of_admitted made admitted a c now
  refine ⟨switched, ok, pane, fun owned => ?_⟩
  obtain ⟨migrated, subject⟩ := admits_iff.mp admitted
  have same : e.subject = p.subject := by
    rcases subject with same | ⟨entry_free, panel_free⟩
    · exact same
    · rw [entry_free, panel_free] at owned
      simp at owned
  have taken : switched.toPane = (bare e).toPane := by rw [pane, bare, migrated, same]
  exact ⟨taken, by rw [taken]; exact made.suits⟩

end Admitted

namespace Scene

theorem stray_panel_takes_photos :
    strayScene.panel.admits (.media ⟨2⟩ (some ⟨1⟩) .photo) = true ∧
      ∃ switched,
        strayScene.panel.switchTo {} {} ⟨0, 1⟩ (.media ⟨2⟩ (some ⟨1⟩) .photo) =
          (.ok (), switched) ∧
        switched.subject = .peer ⟨2⟩ ∧ switched.shown = .media .photo := by
  obtain ⟨admits, shows⟩ :=
    admitted_of_subject_or_unowned strayScene.panel (.media ⟨2⟩ (some ⟨1⟩) .photo) {} {} ⟨0, 1⟩
  have admitted := admits.mpr ⟨rfl, .inl rfl⟩
  obtain ⟨switched, ok, -, owned⟩ := shows admitted
  obtain ⟨pane, -⟩ := owned (.inl rfl)
  exact ⟨admitted, switched, ok, by rw [pane]; rfl, by rw [pane]; rfl⟩

/-- The results of a poll, just opened. -/
def pollScene : Scene where
  panel :=
    (ofEntry {} {} ⟨0, 0⟩ (.pollResults ⟨5⟩ ⟨⟨2⟩, ⟨9⟩⟩)).toOption.getD (bare .downloads)
  account := {}
  now := ⟨0, 1⟩

private theorem reached_pollScene : Reached {} pollScene := by
  have opened : ofEntry {} {} ⟨0, 0⟩ (.pollResults ⟨5⟩ ⟨⟨2⟩, ⟨9⟩⟩) = .ok pollScene.panel := rfl
  exact .opened opened

/-- The downloads are admitted by the panel of a poll, which shows them as a section of the poll. -/
theorem poll_panel_takes_downloads :
    Entry.downloads.Made ∧ pollScene.panel.subject ≠ Entry.downloads.subject ∧
      pollScene.panel.admits .downloads = true ∧
      ∃ switched, pollScene.panel.switchTo {} {} ⟨0, 1⟩ .downloads = (.ok (), switched) ∧
        switched.shown = .downloads ∧ switched.subject = .poll ⟨5⟩ ⟨⟨2⟩, ⟨9⟩⟩ ∧
        switched.subject.suits switched.shown = false :=
  ⟨.downloads, by decide, rfl, _, rfl, rfl, rfl, rfl⟩

variable {c : SearchConfig} {s : Scene}

/-- A panel is built anew from every entry but one without a search, if the shown section is a media
list: that a list is shown needs no check, as the panel is then one of a peer. -/
private theorem Reached.rebuild_fst_eq_error_iff (reached : Reached c s) {a : Account}
    {now : Moment} {e : Entry} {refusal : PanelError} :
    (s.panel.rebuild a c now e).1 = .error refusal ↔
      refusal = .entryMismatch .media e.shown.kind ∧ s.panel.shown.media?.isSome = true ∧
        e.isMedia = false := by
  rw [Panel.rebuild_fst_eq_error_iff, searchFor_eq_error_iff]
  constructor
  · rintro ⟨media, ⟨other, rfl⟩ | ⟨-, no_peer, -⟩⟩
    · exact ⟨rfl, media, other⟩
    · obtain ⟨kind, shown⟩ := Section.isSome_media?_iff.mp media
      obtain ⟨peer, subject⟩ := reached.whole.exists_peer shown
      rw [subject] at no_peer
      cases no_peer
  · rintro ⟨rfl, media, other⟩
    exact ⟨media, .inl ⟨other, rfl⟩⟩

/-- When the operations of a panel are refused, and that what is refused changes nothing. -/
theorem refused_exactly (reached : Reached c s) (a : Account) (now : Moment) (e : Entry) :
    (∀ refusal, (s.panel.switchTo a c now e).1 = .error refusal ↔
      refusal = .notAPeer s.panel.subject ∧ e.isMedia = true ∧ s.panel.subject.peer? = none) ∧
    (e.Made → s.panel.admits e = true → (s.panel.switchTo a c now e).1 = .ok ()) ∧
    (∀ refusal, (s.panel.rebuild a c now e).1 = .error refusal ↔
      refusal = .entryMismatch .media e.shown.kind ∧ s.panel.shown.media?.isSome = true ∧
        e.isMedia = false) ∧
    (∀ refusal, (s.panel.saveInto e).1 = .error refusal ↔
      refusal = .entryMismatch .media e.shown.kind ∧ s.panel.search.isSome = true ∧
        e.isMedia = false) ∧
    (∀ refusal, (s.panel.switchTo a c now e).1 = .error refusal →
      (s.panel.switchTo a c now e).2 = s.panel) ∧
    (∀ refusal, (s.panel.rebuild a c now e).1 = .error refusal →
      (s.panel.rebuild a c now e).2 = s.panel) ∧
    ∀ refusal, (s.panel.saveInto e).1 = .error refusal → (s.panel.saveInto e).2 = e := by
  refine ⟨fun _ => switchTo_fst_eq_error_iff, ?_, fun _ => reached.rebuild_fst_eq_error_iff,
    fun _ => saveInto_fst_eq_error_iff, ?_, ?_, fun _ => saveInto_snd_of_refused⟩
  · intro made admitted
    obtain ⟨switched, ok, -⟩ := switchTo_of_admitted made admitted a c now
    rw [ok]
  · intro refusal refused
    rcases s.panel.switchTo_cases a c now e with ⟨other, eq⟩ | ⟨switched, eq, -⟩
    · rw [eq]
    · rw [eq] at refused
      cases refused
  · intro refusal refused
    rcases s.panel.rebuild_cases a c now e with ⟨other, eq⟩ | ⟨built, eq, -⟩
    · rw [eq]
    · rw [eq] at refused
      cases refused

/-- Files are refused by the panel of a poll; a search that waits is left waiting when its panel is
to be built from a profile, and a profile does not take it over. -/
theorem refused_by_poll_and_files :
    pollScene.panel.switchTo {} {} ⟨0, 1⟩ strayEntry =
      (.error (.notAPeer (.poll ⟨5⟩ ⟨⟨2⟩, ⟨9⟩⟩)), pollScene.panel) ∧
    (∃ d ∈ strayScene.panel.search, d.waiting.isSome = true) ∧
    strayScene.panel.rebuild {} {} ⟨0, 1⟩ (.profile ⟨2⟩ none) =
      (.error (.entryMismatch .media .profile), strayScene.panel) ∧
    strayScene.panel.saveInto (.profile ⟨2⟩ none) =
      (.error (.entryMismatch .media .profile), .profile ⟨2⟩ none) := by
  obtain ⟨switching, -, -, -, kept, -⟩ :=
    refused_exactly reached_pollScene {} ⟨0, 1⟩ strayEntry
  obtain ⟨-, -, building, saving, -, unbuilt, unsaved⟩ :=
    refused_exactly reached_strayScene {} ⟨0, 1⟩ (.profile ⟨2⟩ none)
  have no_files := (switching _).mpr ⟨rfl, rfl, rfl⟩
  have no_search := (building _).mpr ⟨rfl, rfl, rfl⟩
  have no_place := (saving _).mpr ⟨rfl, rfl, rfl⟩
  exact ⟨Prod.ext no_files (kept _ no_files), ⟨_, rfl, rfl⟩,
    Prod.ext no_search (unbuilt _ no_search), Prod.ext no_place (unsaved _ no_place)⟩

end Scene

end Panel

end PeerPanel
