import PeerPanel.Proofs.Account.Origins
import PeerPanel.Proofs.Panel.Anchors
import PeerPanel.Proofs.Panel.Switching
import PeerPanel.Proofs.Search.HitViews

/-!
The view of the media that a panel shows, and the one that its pane offers by itself.

The panel takes the peers and the media list from the applied query, and the pane from its subject
and its section. In a panel that was only ever given entries of its own, each with a search of its
own list, the two are the same (`Panel.Scene.Consistent.searchesOwn`). So while no text is applied,
the two views yield the same windows, unless the anchor is a message that is only scheduled: the
pane looks out for it and the panel does not. Main statement: `Panel.Scene.media_view_agrees`.
-/

set_option autoImplicit false
set_option relaxedAutoImplicit false

namespace PeerPanel

open Pane (plannedPhotos)
open TimelineId (ofMigrated)

namespace Search

/-- One of the messages of the earlier chat has a number that cannot be lowered. -/
def Hits.Unlowerable (h : Hits) : Prop :=
  ∃ n ∈ h.migrated.getD [],
    n.number < -2 ^ 63 + historyShift ∨ 2 ^ 63 + historyShift ≤ n.number

theorem Hits.merged_eq_error_iff {h : Hits} {fault : Fault} :
    h.merged = .error fault ↔ fault = .subtraction ∧ h.Unlowerable := by
  have fails : h.merged = .error fault ↔
      (h.migrated.getD []).mapM ofMigrated = .error fault := by
    rw [merged]
    cases (h.migrated.getD []).mapM ofMigrated <;> simp [bind, Except.bind, pure, Except.pure]
  rw [fails, TimelineId.mapM_ofMigrated_eq_error_iff, Unlowerable]
  simp only [TimelineId.ofMigrated_eq_error_iff]
  constructor
  · rintro ⟨n, hn, rfl, low⟩
    exact ⟨rfl, n, hn, low⟩
  · rintro ⟨rfl, n, hn, low⟩
    exact ⟨n, hn, rfl, low⟩

/-- So it is with the hits that are remembered for the applied query. -/
def Debounce.Unlowerable (d : Debounce) : Prop :=
  ∃ h, d.finder.hits? d.applied = some h ∧ h.Unlowerable

end Search

namespace Pane

private theorem baseView_agrees {p : Pane} {peer : PeerId} {kind : MediaKind}
    (subject : p.subject = .peer peer) (shown : p.shown = .media kind) (a : Account)
    (around : TimelineId) (before after : Nat) :
    let key : WindowKey := { peer, migrated := p.migrated, around, kind }
    ∃ base, p.baseView a around before after = .ok base ∧
      ∀ events, .poll ∈ events →
        ((Viewing.run { account := a, view := a.historyView key before after } events).map
            (·.shown) =
          (Viewing.run { account := a, view := base } events).map (·.shown) ↔
        ¬ ∃ id, around.resolve peer p.migrated = some id ∧ a.message? id = none ∧
          (a.scheduledMessage? id).isSome = true) := by
  intro key
  have opens := p.baseView_eq subject shown a around before after
  rw [← isScheduled_iff]
  by_cases planned : isScheduled a peer p.migrated around = true
  · refine ⟨_, opens.trans (if_pos planned), fun events polled => ?_⟩
    have merged : Viewing.Bears key .merged
        { account := a, view := a.historyView key before after } := ⟨rfl, rfl, by simp⟩
    have scheduled : Viewing.Bears key .scheduled
        { account := a, view := a.scheduledView key before after } := ⟨rfl, rfl, by simp⟩
    have differ := merged.shown_run_ne (.inl rfl) scheduled (by decide) polled
    exact iff_of_false differ (not_not_intro planned)
  · exact ⟨_, opens.trans (if_neg planned), fun _ _ => iff_of_true rfl planned⟩

end Pane

/-- The search of an entry, if it shows a media list, is one of this list. -/
def Entry.Consistent (e : Entry) : Prop :=
  ∀ kind saved, e.content = .media kind saved →
    saved.query.kind = kind ∧ e.subject = .peer saved.query.peer ∧ saved.query.migrated = e.migrated

namespace Panel

open Search (Moment Query Debounce Hits)

/-- Whether an event takes over an entry about the subject of a panel with a search of its own list,
if it takes over any. -/
def Event.KeepsTo (p : Panel) : Event → Prop
  | switchTo e => e.Consistent ∧ e.subject = p.subject ∧ e.migrated = p.migrated
  | rebuild e =>
    e.Consistent ∧ e.subject = p.subject ∧ e.migrated = p.migrated ∧ e.shown = p.shown
  | _ => True

/-- Only queries of the list that the panel shows are applied or wait. -/
def SearchesOwn (p : Panel) : Prop :=
  ∀ d ∈ p.search, d.Among fun q => p.query q.text = .ok q

variable {p built : Panel} {a : Account} {c : SearchConfig} {now : Moment} {e : Entry}

private theorem query_of_query {text : String} {q : Query} (asks : p.query text = .ok q) :
    p.query q.text = .ok q := by
  obtain ⟨kind, peer, -, -, rfl⟩ := query_eq_ok_iff.mp asks
  exact asks

private theorem searchesOwn_of_among (pane : built.toPane = p.toPane)
    (among : ∀ d ∈ built.search, d.Among fun q => p.query q.text = .ok q) : built.SearchesOwn :=
  fun d hd => (among d hd).mono fun q asks => (query_congr pane q.text).trans asks

private theorem searchesOwn_of_rebuild (builds : p.rebuild a c now e = (.ok (), built))
    (consistent : e.Consistent) (subject : e.subject = p.subject)
    (migrated : e.migrated = p.migrated) (shown : e.shown = p.shown) : built.SearchesOwn := by
  have pane : built.toPane = p.toPane := by
    have kept := p.toPane_rebuild a c now e
    rwa [builds] at kept
  refine searchesOwn_of_among pane fun d hd => ?_
  refine (search_rebuild_among a c now e builds d hd).mono ?_
  rintro q (⟨saved, search, rfl⟩ | asks)
  · rcases e.search_cases with ⟨kind, held, content, media, holds⟩ | ⟨-, refused⟩
    · obtain rfl : held = saved := Except.ok.inj (holds.symm.trans search)
      obtain ⟨own, owner, earlier⟩ := consistent kind held content
      refine query_eq_ok_iff.mpr ⟨kind, held.query.peer, shown.symm.trans media, ?_, ?_⟩
      · exact subject.symm.trans owner
      · rw [← migrated, ← earlier, ← own]
    · rw [refused] at search
      cases search
  · rw [query_congr pane] at asks
    exact query_of_query asks

private theorem exists_rebuild_of_ofEntry (opens : ofEntry a c now e = .ok p) :
    ∃ built, (bare e).rebuild a c now e = (.ok (), built) ∧ p.toPane = built.toPane ∧
      p.search = built.search := by
  unfold ofEntry at opens
  split at opens
  · next built builds =>
    cases opens
    exact ⟨built, builds, rfl, rfl⟩
  · cases opens

namespace Scene

/-- The scenes that are reached while the panel is only ever given entries of its own, each with a
search of its own list. -/
inductive Consistent (c : SearchConfig) : Scene → Prop
  | opened {a : Account} {now : Moment} {e : Entry} {panel : Panel} :
      e.Consistent → ofEntry a c now e = .ok panel → Consistent c ⟨panel, a, now.next 0⟩
  | event {s : Scene} (e : Event) :
      Consistent c s → e.KeepsTo s.panel → Consistent c (s.play c e)

variable {s : Scene}

private theorem Consistent.reached (consistent : Consistent c s) : Reached c s := by
  induction consistent with
  | opened _ opens => exact .opened opens
  | event e _ _ ih => exact .event e ih

private theorem searchesOwn_panelAfter (whole : s.panel.Whole c (s.now.after c.delayMs))
    (own : s.panel.SearchesOwn) {e : Event} (keeps : e.KeepsTo s.panel) :
    (s.panelAfter c e).SearchesOwn := by
  by_cases stays : e.isSwitch = false
  · have pane : (s.panelAfter c e).toPane = s.panel.toPane := toPane_panelAfter stays
    refine searchesOwn_of_among pane ?_
    exact search_panelAfter_among whole own stays fun _ _ _ asks => query_of_query asks
  · cases e with
    | switchTo e =>
      obtain ⟨consistent, subject, migrated⟩ := keeps
      rcases s.panel.switchTo_cases s.account c s.now e with
        ⟨refusal, refused⟩ | ⟨switched, switching, -⟩
      · rwa [panelAfter, refused]
      · rw [panelAfter, switching]
        have builds := (switchTo_eq_ok_iff s.account c s.now e).mp switching
        exact searchesOwn_of_rebuild builds consistent subject migrated rfl
    | rebuild e =>
      obtain ⟨consistent, subject, migrated, shown⟩ := keeps
      rcases s.panel.rebuild_cases s.account c s.now e with
        ⟨refusal, refused⟩ | ⟨built, builds, -⟩
      · rwa [panelAfter, refused]
      · rw [panelAfter, builds]
        exact searchesOwn_of_rebuild builds consistent subject migrated shown
    | _ => exact absurd rfl stays

/-- What a panel searches for is in its own list, as long as it is given entries of its own. -/
theorem Consistent.searchesOwn (consistent : Consistent c s) : s.panel.SearchesOwn := by
  induction consistent with
  | opened entry opens =>
    obtain ⟨built, builds, pane, search⟩ := exists_rebuild_of_ofEntry opens
    refine searchesOwn_of_among pane ?_
    rw [search]
    exact searchesOwn_of_rebuild builds entry rfl rfl rfl
  | event e earlier keeps ih => exact searchesOwn_panelAfter earlier.reached.whole ih keeps

private theorem Consistent.exists_search (consistent : Consistent c s) {kind : MediaKind}
    (shown : s.panel.shown = .media kind) :
    ∃ peer d, s.panel.subject = .peer peer ∧ s.panel.search = some d ∧
      d.finder.known.contains d.applied = true ∧
      d.applied = { kind, peer, migrated := s.panel.migrated, text := d.applied.text } := by
  have whole := consistent.reached.whole
  have searched : s.panel.search.isSome = true := by
    rw [whole.searched, shown]
    rfl
  obtain ⟨d, searches⟩ := Option.isSome_iff_exists.mp searched
  obtain ⟨kind', peer, shown', subject, applied⟩ :=
    query_eq_ok_iff.mp (consistent.searchesOwn d searches).applied
  obtain rfl : kind' = kind := Section.media.inj (shown'.symm.trans shown)
  exact ⟨peer, d, subject, searches, (whole.sound d searches).remembered, applied⟩

private theorem Consistent.search_eq_none (consistent : Consistent c s)
    (other : s.panel.shown.media? = none) : s.panel.search = none := by
  have searched := consistent.reached.whole.searched
  rw [other] at searched
  exact Option.isNone_iff_eq_none.mp (Option.isSome_eq_false_iff.mp searched)

end Scene

private theorem mediaView_cases {d : Debounce} (searches : p.search = some d)
    (known : d.finder.known.contains d.applied = true) (a : Account) (around : TimelineId)
    (before after : Nat) :
    (d.applied.text = "" ∧ p.mediaView a around before after =
        .ok (a.historyView (d.applied.key around) before after)) ∨
      (d.applied.text ≠ "" ∧ d.Unlowerable ∧
        p.mediaView a around before after = .error (.fault .subtraction)) ∨
      (d.applied.text ≠ "" ∧ ¬ d.Unlowerable ∧ ∃ first, p.mediaView a around before after =
        .ok (d.applied.view (some first) around before after a.mediaNotices.place)) := by
  by_cases blank : d.applied.text = ""
  · left
    simp only [mediaView, searches, blank, if_true]
    exact ⟨trivial, rfl⟩
  · right
    obtain ⟨h, hits⟩ := Option.isSome_iff_exists.mp known
    have hits : d.finder.hits? d.applied = some h := hits
    have opens : p.mediaView a around before after =
        (h.merged.map fun first =>
          d.applied.view (some first) around before after a.mediaNotices.place).mapError
            .fault := by
      simp only [mediaView, searches, blank, if_false,
        Search.searchView_of_known a around before after hits]
    cases merged : h.merged with
    | error fault =>
      obtain ⟨rfl, low⟩ := Hits.merged_eq_error_iff.mp merged
      rw [merged] at opens
      exact .inl ⟨blank, ⟨h, hits, low⟩, opens⟩
    | ok first =>
      rw [merged] at opens
      refine .inr ⟨blank, ?_, first, opens⟩
      rintro ⟨h', hits', low⟩
      obtain rfl : h = h' := Option.some.inj (hits.symm.trans hits')
      rw [Hits.merged_eq_error_iff.mpr ⟨rfl, low⟩] at merged
      cases merged

private theorem mediaView_of_unsearched (unsearched : p.search = none)
    (other : p.shown.media? = none) (a : Account) (around : TimelineId) (before after : Nat) :
    p.mediaView a around before after = .error (.refused
      (if p.subject.peer?.isSome then .notAMediaSection p.shown.kind
        else .notAPeer p.subject)) := by
  simp only [mediaView, unsearched, Pane.baseView, Pane.peer, Pane.mediaKind, other]
  cases p.subject.peer? <;> rfl

namespace Scene

/-- Outside media lists a panel has no view of media. In a media list it has one, unless a text is
applied and a remembered hit of the earlier chat cannot be lowered; its windows are cut at the
anchor in the shown list of the panel's own peers, from the hits while a text is applied and from
the merged history otherwise. While none is applied, they are those of the view that the pane offers
by itself, exactly if the anchor is not a message that is only scheduled. -/
theorem media_view_agrees {c : SearchConfig} {s : Scene} (consistent : Consistent c s)
    (around : TimelineId) (before after : Nat) :
    let p := s.panel
    let a := s.account
    (p.shown.media? = none →
      p.mediaView a around before after = .error (.refused
        (if p.subject.peer?.isSome then .notAMediaSection p.shown.kind
          else .notAPeer p.subject))) ∧
    ∀ kind, p.shown = .media kind → ∃ peer d, p.subject = .peer peer ∧ p.search = some d ∧
      (∀ stop, p.mediaView a around before after = .error stop ↔
        stop = .fault .subtraction ∧ d.applied.text ≠ "" ∧ d.Unlowerable) ∧
      ∀ v, p.mediaView a around before after = .ok v →
        (∀ events t, Viewing.run { account := a, view := v } events = .ok t → ∀ w ∈ t.shown,
          w.key = { peer, migrated := p.migrated, around, kind } ∧
            w.origin = if d.applied.text = "" then .merged else .search) ∧
        (d.applied.text = "" → ∃ base, p.baseView a around before after = .ok base ∧
          ∀ events, .poll ∈ events →
            ((Viewing.run { account := a, view := v } events).map (·.shown) =
                (Viewing.run { account := a, view := base } events).map (·.shown) ↔
              ¬ ∃ id, around.resolve peer p.migrated = some id ∧ a.message? id = none ∧
                (a.scheduledMessage? id).isSome = true)) := by
  intro p a
  refine ⟨fun other => ?_, fun kind shown => ?_⟩
  · have unsearched := consistent.search_eq_none other
    exact mediaView_of_unsearched unsearched other a around before after
  · obtain ⟨peer, d, subject, searches, known, applied⟩ := consistent.exists_search shown
    let key : WindowKey := { peer, migrated := p.migrated, around, kind }
    have own : d.applied.key around = key := by
      rw [applied]
      rfl
    refine ⟨peer, d, subject, searches, ?_⟩
    rcases mediaView_cases (p := p) searches known a around before after with
      ⟨blank, opens⟩ | ⟨typed, low, stops⟩ | ⟨typed, high, first, opens⟩
    · rw [own] at opens
      have bears : Viewing.Bears key .merged
          { account := a, view := a.historyView key before after } := ⟨rfl, rfl, by simp⟩
      refine ⟨fun stop => by simp [opens, blank], fun v views => ?_⟩
      obtain rfl : a.historyView key before after = v := Except.ok.inj (opens.symm.trans views)
      refine ⟨fun events t runs w hw => ?_, fun _ => ?_⟩
      · rw [if_pos blank]
        exact (bears.run runs).shown w hw
      · exact Pane.baseView_agrees subject shown a around before after
    · refine ⟨fun stop => ?_, fun v views => ?_⟩
      · rw [stops]
        simp [typed, low, eq_comm]
      · rw [stops] at views
        cases views
    · refine ⟨fun stop => by simp [opens, high], fun v views => ?_⟩
      obtain rfl := Except.ok.inj (opens.symm.trans views)
      have bears : Viewing.Bears key .search
          { account := a
            view := d.applied.view (some first) around before after a.mediaNotices.place } :=
        ⟨own, rfl, by simp⟩
      refine ⟨fun events t runs w hw => ?_, fun blank => absurd blank typed⟩
      rw [if_neg typed]
      exact (bears.run runs).shown w hw

/-- The photos of a channel, opened where a photo is planned for it. -/
def photoEntry : Entry := .media ⟨2⟩ (some ⟨1⟩) .photo

def photoScene : Scene where
  panel :=
    (ofEntry (Account.after plannedPhotos) {} ⟨0, 0⟩ photoEntry).toOption.getD (bare photoEntry)
  account := Account.after plannedPhotos
  now := ⟨0, 1⟩

private theorem consistent_photoScene : Consistent {} photoScene := by
  have opens : ofEntry photoScene.account {} ⟨0, 0⟩ photoEntry = .ok photoScene.panel := rfl
  refine .opened ?_ opens
  rintro kind saved ⟨⟩
  exact ⟨rfl, rfl, rfl⟩

/-- At the photo that is planned for the channel the two views differ from the first window on. -/
theorem planned_photo_tells_apart :
    ∃ v base, photoScene.panel.mediaView photoScene.account ⟨9⟩ 1 1 = .ok v ∧
      photoScene.panel.baseView photoScene.account ⟨9⟩ 1 1 = .ok base ∧
      (Viewing.run { account := photoScene.account, view := v } [.poll]).map (·.shown) ≠
        (Viewing.run { account := photoScene.account, view := base } [.poll]).map (·.shown) := by
  obtain ⟨peer, d, subject, searches, -, views⟩ :=
    (media_view_agrees consistent_photoScene ⟨9⟩ 1 1).2 .photo rfl
  obtain ⟨base, opens, differ⟩ := (views _ rfl).2 (by cases searches; rfl)
  cases subject
  have planned : ∃ id, TimelineId.resolve ⟨9⟩ ⟨2⟩ photoScene.panel.migrated = some id ∧
      photoScene.account.message? id = none ∧
        (photoScene.account.scheduledMessage? id).isSome = true := ⟨_, rfl, rfl, rfl⟩
  exact ⟨_, base, rfl, opens, fun same => (differ [.poll] (by simp)).mp same planned⟩

/-- Files that are searched for a text, and the lowest of all numbers among those that it finds. -/
def lowEntry : Entry :=
  { subject := .peer ⟨2⟩, migrated := some ⟨1⟩, fieldText := "plan"
    content := .media .file
      { query := { kind := .file, peer := ⟨2⟩, migrated := some ⟨1⟩, text := "plan" } } }

def lowAccount : Account :=
  Account.after [.message { id := ⟨⟨1⟩, ⟨-2 ^ 63⟩⟩, text := "plan", attachment := some .file }]

def lowScene : Scene where
  panel := (ofEntry lowAccount {} ⟨0, 0⟩ lowEntry).toOption.getD (bare lowEntry)
  account := lowAccount
  now := ⟨0, 1⟩

private theorem consistent_lowScene : Consistent {} lowScene := by
  have opens : ofEntry lowAccount {} ⟨0, 0⟩ lowEntry = .ok lowScene.panel := rfl
  refine .opened ?_ opens
  rintro kind saved ⟨⟩
  exact ⟨rfl, rfl, rfl⟩

/-- The hit of the earlier chat cannot be placed in the timeline, so there is no view of the
files. -/
theorem lowest_hit_stops_view :
    Consistent {} lowScene ∧ lowScene.panel.shown = .media .file ∧
      lowScene.panel.mediaView lowScene.account ⟨0⟩ 10 10 = .error (.fault .subtraction) :=
  ⟨consistent_lowScene, rfl, by decide +kernel⟩

end Scene

end Panel

end PeerPanel
