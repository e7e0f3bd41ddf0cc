import PeerPanel.Proofs.Panel.Scene

/-!
What a panel has and offers in the section that it shows.

The section alone decides which parts there are, whatever was refused to the panel before, and a
media list is only shown of a peer. So a query can be made in every media list and nowhere else, and
the media that are shown can be viewed: `Panel.Scene.parts_match_section`.
-/

set_option autoImplicit false
set_option relaxedAutoImplicit false

namespace PeerPanel

private theorem SearchConfig.hasField_iff {c : SearchConfig} {s : Section} :
    c.hasField s = true ↔
      s = .commonGroups ∨ s = .members ∨ s = .profile ∨ ∃ kind ∈ c.searchable, s = .media kind := by
  cases s <;> simp [hasField, allows]

namespace Panel

variable {p : Panel} {refusal : PanelError}

private theorem query_eq_error_iff {text : String} :
    p.query text = .error refusal ↔
      (p.shown.media? = none ∧ refusal = .notAMediaSection p.shown.kind) ∨
        (p.shown.media?.isSome = true ∧ p.subject.peer? = none ∧
          refusal = .notAPeer p.subject) := by
  unfold query Pane.mediaKind Pane.peer
  cases p.shown.media? with
  | none => simp [bind, Except.bind, eq_comm]
  | some kind =>
    cases p.subject.peer? with
    | none => simp [bind, Except.bind, eq_comm]
    | some peer => simp [bind, Except.bind, pure, Except.pure]

private theorem baseView_eq_error_iff {a : Account} {around : TimelineId} {before after : Nat} :
    p.baseView a around before after = .error refusal ↔
      (p.subject.peer? = none ∧ refusal = .notAPeer p.subject) ∨
        (p.subject.peer?.isSome = true ∧ p.shown.media? = none ∧
          refusal = .notAMediaSection p.shown.kind) := by
  unfold Pane.baseView Pane.peer Pane.mediaKind
  cases p.subject.peer? with
  | none => simp [bind, Except.bind, eq_comm]
  | some peer =>
    cases p.shown.media? with
    | none => simp [bind, Except.bind, eq_comm]
    | some kind =>
      simp only [bind, Except.bind, pure, Except.pure]
      split <;> simp

namespace Scene

variable {c : SearchConfig} {s : Scene}

/-- There is a search exactly in media lists, and a field exactly in those that can be searched, in
the profile and in the lists of groups and members. A media list is one of a peer, for which a query
is made of every text, and whose media can be viewed from every position; in all other sections
queries are refused. -/
theorem parts_match_section (reached : Reached c s) :
    let p := s.panel
    (p.search.isSome = true ↔ ∃ kind, p.shown = .media kind) ∧
    (p.field.isSome = true ↔
      p.shown = .commonGroups ∨ p.shown = .members ∨ p.shown = .profile ∨
        ∃ kind ∈ c.searchable, p.shown = .media kind) ∧
    (∀ kind, p.shown = .media kind → ∃ peer, p.subject = .peer peer ∧
      (∀ text, p.query text = .ok { kind, peer, migrated := p.migrated, text }) ∧
      ∀ a around before after, ∃ v, p.baseView a around before after = .ok v) ∧
    ∀ text refusal, p.query text = .error refusal ↔
      refusal = .notAMediaSection p.shown.kind ∧ ¬ ∃ kind, p.shown = .media kind := by
  intro p
  have whole : p.Whole c (s.now.after c.delayMs) := reached.whole
  refine ⟨?_, ?_, fun kind shown => ?_, fun text refusal => ?_⟩
  · rw [whole.searched, Section.isSome_media?_iff]
  · rw [whole.fielded, SearchConfig.hasField_iff]
  · obtain ⟨peer, subject⟩ := whole.exists_peer shown
    refine ⟨peer, subject, fun text => ?_, fun a around before after => ?_⟩
    · exact query_eq_ok_iff.mpr ⟨kind, peer, shown, subject, rfl⟩
    · cases views : p.baseView a around before after with
      | ok v => exact ⟨v, rfl⟩
      | error refusal =>
        have refused := baseView_eq_error_iff.mp views
        simp [subject, shown, Subject.peer?, Section.media?] at refused
  · rw [query_eq_error_iff, ← Section.isSome_media?_iff]
    constructor
    · rintro (⟨other, rfl⟩ | ⟨media, no_peer, -⟩)
      · exact ⟨rfl, by simp [other]⟩
      · obtain ⟨kind, shown⟩ := Section.isSome_media?_iff.mp media
        obtain ⟨peer, subject⟩ := whole.exists_peer shown
        rw [subject] at no_peer
        cases no_peer
    · rintro ⟨rfl, other⟩
      exact .inl ⟨by simpa using other, rfl⟩

/-- Photos cannot be searched, so files lose their field when photos are shown. A profile has no
search put aside, so the photos are not built anew from one, and keep their search. -/
theorem photos_without_field :
    let switched := strayScene.run {} [.switchTo (.media ⟨2⟩ (some ⟨1⟩) .photo),
      .rebuild (.profile ⟨2⟩ none)]
    strayScene.panel.field.isSome = true ∧ switched.panel.shown = .media .photo ∧
      switched.panel.search.isSome = true ∧ switched.panel.field.isSome = false ∧
      switched.panel.query "plan" = .ok ⟨.photo, ⟨2⟩, some ⟨1⟩, "plan"⟩ := by
  intro switched
  obtain ⟨-, fielded, -⟩ := parts_match_section reached_strayScene
  have reached : Reached {} switched := reached_strayScene.run _
  have shown : switched.panel.shown = .media .photo := rfl
  obtain ⟨searched, unfielded, asks, -⟩ := parts_match_section reached
  obtain ⟨peer, subject, asked, -⟩ := asks .photo shown
  have same : PeerId.mk 2 = peer := Subject.peer.inj subject
  subst same
  refine ⟨fielded.mpr (.inr (.inr (.inr ⟨.file, by decide, rfl⟩))), shown,
    searched.mpr ⟨.photo, shown⟩, Bool.eq_false_iff.mpr fun field => ?_, asked "plan"⟩
  have allowed := unfielded.mp field
  rw [shown] at allowed
  simp at allowed

end Scene

end Panel

end PeerPanel
