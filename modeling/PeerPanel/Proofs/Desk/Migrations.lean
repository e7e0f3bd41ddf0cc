import PeerPanel.Proofs.Desk.Watching

/-!
Panels are opened anew when their peer migrates, and only then.

Every call that a window is told comes from a watch that has fired: its panel was opened on a chat
or a channel with no earlier chat beside it and stands at that place since, and the peer was linked
(`Desk.Fires`). The other way round, what is published for a watch is owed to its window until the
call is made (`Desk.Owed`): first as an unread notice, then as a queued call. Both are carried along
by every move, and together they are `Desk.reopened_on_migration`.
-/

set_option autoImplicit false
set_option relaxedAutoImplicit false

namespace PeerPanel

namespace Desk

open Account (Change)

section

variable {d e : Desk} {m : Move} {place : String} {w : Watcher}

private theorem Stepped.step_le (h : Stepped d m e) : d.step ≤ e.step := by
  cases h with
  | @host e host =>
    rw [e.alike_stir.step, host.step]
    exact Nat.le_succ _
  | still alike =>
    rw [alike.step]
    exact Nat.le_add_right _ _
  | aside _ _ _ _ alike => exact Nat.le_of_eq alike.step.symm
  | reads _ _ _ _ _ _ _ step => exact Nat.le_of_eq step.symm
  | putOff => exact Nat.le_refl _
  | tells _ _ _ _ step => exact Nat.le_of_eq step.symm
  | loses => exact Nat.le_refl _

private theorem Stepped.widgets (h : Stepped d m e) :
    ∀ b ∈ e.widgets.bindings, b ∈ d.widgets.bindings ∨ b.2.1 = d.step + 1 := by
  intro b hb
  cases h with
  | @host e host =>
    rw [e.alike_stir.widgets] at hb
    exact host.widgets b hb
  | still alike =>
    rw [alike.widgets] at hb
    exact .inl hb
  | aside _ _ _ _ alike =>
    rw [alike.widgets] at hb
    exact .inl hb
  | reads _ _ _ _ _ _ _ _ widgets =>
    rw [widgets] at hb
    exact .inl hb
  | putOff => exact .inl hb
  | tells _ _ _ _ _ widgets =>
    rw [widgets] at hb
    exact .inl hb
  | loses => exact .inl hb

theorem Stepped.told_cases (h : Stepped d m e) (place : String) :
    e.told place = d.told place ∨
      ∃ c rest, m = .turn ∧ d.agenda.next? = some (.call c, rest) ∧ c.place = place ∧
        (c.widget.bind d.widgetMade?).isSome = true ∧ e.told place = d.told place ++ [c.call] := by
  cases h with
  | @host e host =>
    rw [e.alike_stir.told, host.told]
    exact .inl rfl
  | still alike =>
    rw [alike.told]
    exact .inl rfl
  | aside _ _ _ _ alike =>
    rw [alike.told]
    exact .inl rfl
  | reads _ _ _ _ _ _ _ _ _ told =>
    rw [told]
    exact .inl rfl
  | putOff => exact .inl rfl
  | @tells e c rest turn next alive _ _ _ _ _ _ told =>
    rw [told]
    by_cases here : place = c.place
    · subst here
      exact .inr ⟨c, rest, turn, next, rfl, alive, Function.update_self ..⟩
    · exact .inl (Function.update_of_ne here ..)
  | loses => exact .inl rfl

private theorem isSome_widgetMade?_iff {made : Nat} :
    (d.widgetMade? made).isSome = true ↔ ∃ b ∈ d.widgets.bindings, b.2.1 = made := by
  simp [widgetMade?]

end

section

variable {front back : List Move} {place : String} {w : Watcher} {made : Nat}

private theorem step_le_run (front back : List Move) :
    (run front).step ≤ (run (front ++ back)).step := by
  induction back using List.reverseRecOn with
  | nil => exact Nat.le_of_eq (by rw [List.append_nil])
  | append_singleton back m ih =>
    rw [← List.append_assoc]
    exact Nat.le_trans ih (stepped_run (front ++ back) m).step_le

theorem stood_before (stands : (run (front ++ back)).watcher? place = some w)
    (opened : w.opened ≤ (run front).step) :
    ∃ old, (run front).watcher? place = some old ∧ old.Continues w := by
  induction back using List.reverseRecOn generalizing w with
  | nil =>
    rw [List.append_nil] at stands
    exact ⟨w, stands, .refl w⟩
  | append_singleton back m ih =>
    rw [← List.append_assoc] at stands
    rcases (stepped_run (front ++ back) m).watcher_cases stands with
      ⟨old, there, continues⟩ | ⟨_, _, entry, -, -, rfl⟩
    · rw [continues.opened] at opened
      obtain ⟨older, first, before⟩ := ih there opened
      exact ⟨older, first, before.trans continues⟩
    · -- a panel that is opened by the last move is younger than `front`
      have later := step_le_run front back
      have late : (run (front ++ back)).step + 1 ≤ (run front).step := opened
      omega

private theorem widgetMade?_before (alive : ((run (front ++ back)).widgetMade? made).isSome = true)
    (old : made ≤ (run front).step) : ((run front).widgetMade? made).isSome = true := by
  induction back using List.reverseRecOn with
  | nil => rwa [List.append_nil] at alive
  | append_singleton back m ih =>
    rw [← List.append_assoc] at alive
    refine ih ?_
    obtain ⟨b, bound, rfl⟩ := isSome_widgetMade?_iff.mp alive
    rcases (stepped_run (front ++ back) m).widgets b bound with before | fresh
    · exact isSome_widgetMade?_iff.mpr ⟨b, before, rfl⟩
    · have later := step_le_run front back
      omega

end

/-- A panel that is opened on an entry watches for migrations of a peer: the peer is stored as a
chat or a channel, and the entry has no earlier chat. -/
def OpensWatch (d : Desk) (name : String) (peer : PeerId) : Prop :=
  ∃ e record, d.entries.get? name = some e ∧ e.subject.peer? = some peer ∧ e.migrated = none ∧
    d.account.peer? peer = some record ∧ record.kind ≠ .user

private theorem opensWatch_iff {d : Desk} {name : String} {e : Entry} {peer : PeerId}
    (stored : d.entries.get? name = some e) (widget : Option String) :
    d.OpensWatch name peer ↔ (d.openedWatcher e widget).watch.map (·.peer) = some peer := by
  constructor
  · rintro ⟨e', record, stored', subject, migrated, found, kind⟩
    rw [stored] at stored'
    cases stored'
    have watch : (d.openedWatcher e widget).watch = some (d.account.peerView peer .ofMigration) :=
      Pane.migrationWatch_eq_some_iff.mpr ⟨peer, record, subject, found, kind, migrated, rfl⟩
    rw [watch]
    rfl
  · intro watches
    obtain ⟨v, watch, rfl⟩ := Option.map_eq_some_iff.mp watches
    obtain ⟨peer, record, subject, found, kind, migrated, rfl⟩ :=
      Pane.migrationWatch_eq_some_iff.mp watch
    exact ⟨e, record, stored, subject, migrated, found, kind⟩

/-- The opening of a panel, after some moves. -/
structure Opening where
  before : List Move
  place : String
  entry : String
  widget : Option String

namespace Opening

variable (o : Opening)

def moves (since : List Move) :
    List Move := o.before ++ .openPanel o.place o.entry o.widget :: since

theorem moves_append (since later : List Move) :
    o.moves (since ++ later) = o.moves since ++ later := by
  simp [moves]

theorem step_le (since : List Move) : (run o.before).step + 1 ≤ (run (o.moves since)).step := by
  have opened : (run (o.moves [])).step = (run o.before).step + 1 := by
    rw [moves, run_append_singleton, play, after_inStep, (alike_stir _).step]
    exact (host_openPanel (run o.before) (sound_run o.before).toTidy o.place o.entry o.widget).step
  rw [← opened, ← List.nil_append since, moves_append]
  exact step_le_run (o.moves []) since

/-- The panel that was opened stands at its place, and has become this. -/
structure Stands (since : List Move) (w : Watcher) : Prop where
  here : (run (o.moves since)).watcher? o.place = some w
  opened : w.opened = (run o.before).step + 1

variable {o} {since later : List Move} {w : Watcher}

private theorem Stands.before (stands : o.Stands (since ++ later) w) :
    ∃ old, o.Stands since old ∧ old.Continues w := by
  obtain ⟨here, opened⟩ := stands
  rw [moves_append] at here
  obtain ⟨old, there, continues⟩ := stood_before here (opened ▸ o.step_le since)
  exact ⟨old, ⟨there, continues.opened.symm.trans opened⟩, continues⟩

private theorem Stands.continues (stands : o.Stands since w) :
    ∃ e, (run o.before).entries.get? o.entry = some e ∧
      ((run o.before).openedWatcher e o.widget).Continues w := by
  obtain ⟨here, opened⟩ := stands
  rw [← List.nil_append since, moves_append] at here
  obtain ⟨old, there, continues⟩ := stood_before here (opened ▸ o.step_le [])
  rcases (stepped_run o.before _).watcher_cases there with
    ⟨older, first, before⟩ | ⟨name, widget, e, opens, stored, rfl⟩
  · -- what stood there before the opening is not the panel that was opened
    have early := ((sound_run o.before).fits o.place older first).opened
    have late := before.opened.symm.trans (continues.opened.symm.trans opened)
    omega
  · cases opens
    exact ⟨e, stored, continues⟩

theorem Stands.opensWatch_iff {peer : PeerId} (stands : o.Stands since w) :
    (run o.before).OpensWatch o.entry peer ↔ w.watch.map (·.peer) = some peer := by
  obtain ⟨e, stored, continues⟩ := stands.continues
  rw [continues.peer]
  exact Desk.opensWatch_iff stored o.widget

private theorem exists_stands {moves : List Move} {place : String}
    (here : (run moves).watcher? place = some w) :
    ∃ o since, moves = Opening.moves o since ∧ place = o.place ∧ o.Stands since w := by
  induction moves using List.reverseRecOn generalizing w with
  | nil => cases here
  | append_singleton moves m ih =>
    rcases (stepped_run moves m).watcher_cases here with
      ⟨old, there, continues⟩ | ⟨name, widget, e, opens, stored, rfl⟩
    · obtain ⟨o, since, rfl, rfl, stands⟩ := ih there
      rw [← moves_append] at here ⊢
      exact ⟨o, since ++ [m], rfl, rfl, here, continues.opened.trans stands.opened⟩
    · subst opens
      exact ⟨⟨moves, place, name, widget⟩, [], rfl, rfl, here, rfl⟩

end Opening

/-- The next task is the watch of a panel that was opened on a peer and stands at its place since,
and the peer is linked. -/
structure Fires (o : Opening) (since : List Move) (peer : PeerId) (w : Watcher) : Prop where
  opens : (run o.before).OpensWatch o.entry peer
  widget : w.widget = (o.widget.bind fun x => (run o.before).widgets.get? x).map (·.1)
  stood : ∀ early, early <+: since → ∃ old, o.Stands early old
  stands : o.Stands since w
  next : ∃ rest, (run (o.moves since)).agenda.next? = some (.watch w.opened, rest)
  linked : ((run (o.moves since)).account.peer? peer).any Peer.isLinked = true

theorem Opening.Stands.fires {o : Opening} {since : List Move} {w : Watcher} {v : PeerView}
    {rest : Agenda Task} (stands : o.Stands since w) (watch : w.watch = some v)
    (next : (run (o.moves since)).agenda.next? = some (.watch w.opened, rest))
    (linked : ((run (o.moves since)).account.peer? v.peer).any Peer.isLinked = true) :
    Fires o since v.peer w where
  opens := stands.opensWatch_iff.mpr (by rw [watch]; rfl)
  widget := by
    obtain ⟨e, -, continues⟩ := stands.continues
    exact continues.widget
  stood early isPrefix := by
    obtain ⟨late, rfl⟩ := isPrefix
    obtain ⟨old, stood, -⟩ := stands.before
    exact ⟨old, stood⟩
  stands := stands
  next := ⟨rest, next⟩
  linked := linked

/-- A call that a watch queues which has its turn next and finds its peer linked. -/
structure Queues (d : Desk) (w : Watcher) (v : PeerView) (c : QueuedCall) : Prop where
  next : ∃ rest, d.agenda.next? = some (.watch w.opened, rest)
  here : d.watcher? c.place = some w
  watch : w.watch = some v
  linked : (d.account.peer? v.peer).any Peer.isLinked = true
  widget : c.widget = w.widget
  call : c.call = reopeningOf v.peer w.pane.shown

private theorem Stepped.queued_cases {d e : Desk} {m : Move} {c : QueuedCall} (h : Stepped d m e)
    (queued : e.agenda.Holds (.call c)) :
    (∃ isPutOff, d.agenda.Holds (.call { c with isPutOff })) ∨
      m = .turn ∧ ∃ w v, d.Queues w v c := by
  have earlier (before : d.agenda.Holds (.call c)) :
      ∃ isPutOff, d.agenda.Holds (.call { c with isPutOff }) := ⟨c.isPutOff, before⟩
  cases h with
  | @host e host => exact .inl (earlier (host.agenda.calls c (e.grows_stir.calls c queued)))
  | still _ grows => exact .inl (earlier (grows.calls c queued))
  | aside _ next _ _ _ grows =>
    exact .inl (earlier ((Agenda.holds_of_next? next).mpr (.inr (grows.calls c queued))))
  | @reads _ rest place w v _ _ calls turn next stands watch _ fired _ _ _ _ _ _ agenda =>
    rw [agenda, Agenda.holds_pause] at queued
    have begun : (rest.begin calls).Holds (.call c) := queued.resolve_right (by simp)
    rcases Agenda.holds_begin.mp begun with before | fresh
    · exact .inl (earlier ((Agenda.holds_of_next? next).mpr (.inr before)))
    · rw [fired] at fresh
      obtain ⟨some, same⟩ := List.mem_replicate.mp fresh
      cases same
      have linked : (d.account.peer? v.peer).any Peer.isLinked = true := by
        by_contra unlinked
        rw [if_neg unlinked] at some
        exact some rfl
      exact .inr ⟨turn, w, v, ⟨rest, next⟩, stands, watch, linked, rfl, rfl⟩
  | putOff _ next =>
    left
    rcases Agenda.holds_tire.mp queued with before | same
    · exact earlier ((Agenda.holds_of_next? next).mpr (.inr before))
    · cases same
      exact ⟨_, (Agenda.holds_of_next? next).mpr (.inl rfl)⟩
  | tells _ next _ _ _ _ _ _ agenda =>
    rw [agenda] at queued
    exact .inl (earlier ((Agenda.holds_of_next? next).mpr (.inr queued)))
  | loses _ next => exact .inl (earlier ((Agenda.holds_of_next? next).mpr (.inr queued)))

section

variable {moves : List Move} {place : String}

private theorem exists_queues {c : QueuedCall} (queued : (run moves).agenda.Holds (.call c)) :
    ∃ front back w v, moves = front ++ .turn :: back ∧ (run front).Queues w v c := by
  induction moves using List.reverseRecOn generalizing c with
  | nil => rcases queued with h | h | h <;> cases h
  | append_singleton moves m ih =>
    rcases (stepped_run moves m).queued_cases queued with ⟨isPutOff, before⟩ | ⟨rfl, w, v, queues⟩
    · obtain ⟨front, back, w, v, rfl, next, here, watch, linked, widget, call⟩ := ih before
      exact ⟨front, back ++ [m], w, v, by simp, next, here, watch, linked, widget, call⟩
    · exact ⟨moves, [], w, v, rfl, queues⟩

private theorem told_run_cases (moves : List Move) (m : Move) (place : String) :
    (run (moves ++ [m])).told place = (run moves).told place ∨
      ∃ o since back peer w, m = .turn ∧ moves = o.moves since ++ .turn :: back ∧
        place = o.place ∧ Fires o since peer w ∧
        (w.widget.bind (run moves).widgetMade?).isSome = true ∧
        (run (moves ++ [m])).told place =
          (run moves).told place ++ [reopeningOf peer w.pane.shown] := by
  rcases (stepped_run moves m).told_cases place with same | ⟨c, rest, turn, next, rfl, alive, told⟩
  · exact .inl same
  · right
    have queued : (run moves).agenda.Holds (.call c) := (Agenda.holds_of_next? next).mpr (.inl rfl)
    obtain ⟨front, back, w, v, rfl, ⟨rest', fires⟩, here, watch, linked, widget, call⟩ :=
      exists_queues queued
    obtain ⟨o, since, rfl, same, stands⟩ := Opening.exists_stands here
    rw [widget] at alive
    rw [call] at told
    exact ⟨o, since, back, v.peer, w, turn, rfl, same, stands.fires watch fires linked, alive, told⟩

end

/-- A window is yet to be asked, or has been asked since it was told what comes before: the watch
of its panel owes a notice, or a call is queued, or the window has been told. -/
inductive Owed (d : Desk) (place : String) (opened : Nat) (widget : Option Nat)
    (asks : NavCall → Prop) (before : List NavCall) : Prop
  | unread {w : Watcher} {v : PeerView} : d.watcher? place = some w → w.opened = opened →
      w.widget = widget → w.watch = some v → v.Owes d.account →
      Owed d place opened widget asks before
  | queued {c : QueuedCall} : d.agenda.Holds (.call c) → c.place = place → c.widget = widget →
      asks c.call → Owed d place opened widget asks before
  | told {calls : List NavCall} {call : NavCall} : d.told place = before ++ calls → call ∈ calls →
      asks call → Owed d place opened widget asks before

section

variable {d e : Desk} {m : Move} {place : String} {opened : Nat} {widget : Option Nat}
  {asks : NavCall → Prop} {before : List NavCall}

private theorem Stepped.told_grows (h : Stepped d m e) (place : String) :
    d.told place <+: e.told place := by
  rcases h.told_cases place with same | ⟨c, _, -, -, -, -, told⟩
  · exact ⟨[], by rw [same, List.append_nil]⟩
  · exact ⟨[c.call], told.symm⟩

private theorem Stepped.owed_of_unread (h : Stepped d m e) (sound : d.Sound) {w : Watcher}
    {v : PeerView} (stays : ∃ w, e.watcher? place = some w ∧ w.opened = opened)
    (fires : ∀ rest, m = .turn → d.agenda.next? = some (.watch w.opened, rest) →
      (d.account.peer? v.peer).any Peer.isLinked = true ∧ asks (reopeningOf v.peer w.pane.shown))
    (stands : d.watcher? place = some w) (since : w.opened = opened) (held : w.widget = widget)
    (watch : w.watch = some v) (owes : v.Owes d.account) :
    e.Owed place opened widget asks before := by
  have kept (watchers : e.watcher? = d.watcher?) (account : e.account = d.account) :
      e.Owed place opened widget asks before := by
    refine .unread (w := w) (v := v) ?_ since held watch ?_
    · rw [watchers, stands]
    · rw [account]
      exact owes
  cases h with
  | @host e host =>
    obtain ⟨x, there, same⟩ := stays
    rw [e.alike_stir.watcher?] at there
    rcases host.watcher_cases there with ⟨old, shown, here, rfl⟩ | ⟨_, _, entry, -, -, rfl⟩
    · rw [stands] at here
      cases here
      rw [← e.alike_stir.watcher?] at there
      refine .unread there same held watch ?_
      rw [e.alike_stir.account]
      rcases host.account with same | ⟨c, -, changed⟩
      · rwa [same]
      · rw [changed]
        exact Account.owes_apply ((sound.fits place w stands).inside v watch) c owes
    · -- another panel in its place would have been opened in a later step
      have early := (sound.fits place w stands).opened
      have late : d.step + 1 = opened := same
      omega
  | still alike => exact kept alike.watcher? alike.account
  | aside _ _ _ _ alike => exact kept alike.watcher? alike.account
  | @reads _ rest there w' u v' notices calls turn next stands' watch' read fired account _ _ _ _
      watchers agenda =>
    by_cases here : place = there
    · subst here
      rw [stands] at stands'
      cases stands'
      rw [watch] at watch'
      cases watch'
      cases notices with
      | nil =>
        -- it has stopped on the way, before what it owes
        refine .unread (w := { w with watch := some v' }) ?_ since held rfl ?_
        · rw [watchers, Function.update_self]
        · rw [account]
          exact read.owes rfl owes
      | cons n notices =>
        obtain ⟨linked, asked⟩ := fires rest turn next
        rw [linked, if_pos rfl] at fired
        have begun : (rest.begin calls).Holds
            (.call { place, widget := w.widget, call := reopeningOf v.peer w.pane.shown }) := by
          refine Agenda.holds_begin.mpr (.inr ?_)
          simp [fired, List.mem_replicate]
        have queued : e.agenda.Holds
            (.call { place, widget := w.widget, call := reopeningOf v.peer w.pane.shown }) := by
          rw [agenda, Agenda.holds_pause]
          exact .inl begun
        exact .queued queued rfl held asked
    · refine .unread (w := w) (v := v) ?_ since held watch ?_
      · rw [watchers, Function.update_of_ne here, stands]
      · rw [account]
        exact owes
  | putOff => exact kept rfl rfl
  | tells _ _ _ account _ _ watchers => exact kept watchers account
  | loses => exact kept rfl rfl

private theorem Stepped.owed_of_queued (h : Stepped d m e) (told : before <+: d.told place)
    (alive : (widget.bind d.widgetMade?).isSome = true) {c : QueuedCall}
    (queued : d.agenda.Holds (.call c)) (goes : c.place = place) (held : c.widget = widget)
    (asked : asks c.call) : e.Owed place opened widget asks before := by
  have kept (still : e.agenda.Holds (.call c)) : e.Owed place opened widget asks before :=
    .queued still goes held asked
  cases h with
  | @host e host => exact kept (e.grows_stir.held _ (host.agenda.held _ queued))
  | still _ grows => exact kept (grows.held _ queued)
  | aside _ next noCall _ _ grows =>
    rcases (Agenda.holds_of_next? next).mp queued with same | later
    · exact absurd same.symm (noCall c)
    · exact kept (grows.held _ later)
  | reads _ next _ _ _ _ _ _ _ _ _ _ agenda =>
    rcases (Agenda.holds_of_next? next).mp queued with same | later
    · cases same
    · refine kept ?_
      rw [agenda, Agenda.holds_pause]
      exact .inl (Agenda.holds_begin.mpr (.inl later))
  | @putOff _ rest _ next =>
    rcases (Agenda.holds_of_next? next).mp queued with same | later
    · cases same
      have queued : (rest.tire (.call { c with isPutOff := true })).Holds
          (.call { c with isPutOff := true }) := Agenda.holds_tire.mpr (.inr rfl)
      exact .queued queued goes held asked
    · exact kept (Agenda.holds_tire.mpr (.inl later))
  | tells _ next _ _ _ _ _ _ agenda tells =>
    rcases (Agenda.holds_of_next? next).mp queued with same | later
    · cases same
      obtain ⟨calls, split⟩ := told
      have now : e.told c.place = before ++ (calls ++ [c.call]) := by
        rw [tells, Function.update_self, goes, ← split, List.append_assoc]
      rw [goes] at now
      exact .told now (List.mem_append_right calls (List.mem_singleton_self _)) asked
    · exact kept (by rwa [agenda])
  | loses _ next gone =>
    rcases (Agenda.holds_of_next? next).mp queued with same | later
    · cases same
      rw [held, alive] at gone
      cases gone
    · exact kept later

private theorem Stepped.owed (h : Stepped d m e) (sound : d.Sound) (told : before <+: d.told place)
    (stays : ∃ w, e.watcher? place = some w ∧ w.opened = opened)
    (alive : (widget.bind d.widgetMade?).isSome = true)
    (fires : ∀ w v rest, d.watcher? place = some w → w.watch = some v → w.opened = opened →
      m = .turn → d.agenda.next? = some (.watch w.opened, rest) →
      (d.account.peer? v.peer).any Peer.isLinked = true ∧ asks (reopeningOf v.peer w.pane.shown))
    (owed : d.Owed place opened widget asks before) : e.Owed place opened widget asks before := by
  cases owed with
  | @unread w v stands since held watch owes =>
    exact h.owed_of_unread sound stays (fires w v · stands watch since) stands since held watch owes
  | queued queued goes held asked => exact h.owed_of_queued told alive queued goes held asked
  | @told calls call split said asked =>
    obtain ⟨more, longer⟩ := h.told_grows place
    have now : e.told place = before ++ (calls ++ more) := by
      rw [← longer, split, List.append_assoc]
    exact .told now (List.mem_append_left more said) asked

end

section

variable {moves later : List Move} {place : String} {opened : Nat} {widget : Option Nat}
  {asks : NavCall → Prop} {before : List NavCall}

private theorem told_grows_run (moves later : List Move) (place : String) :
    (run moves).told place <+: (run (moves ++ later)).told place := by
  induction later using List.reverseRecOn with
  | nil => exact ⟨[], by simp only [List.append_nil]⟩
  | append_singleton later m ih =>
    rw [← List.append_assoc]
    exact ih.trans ((stepped_run (moves ++ later) m).told_grows place)

/-- What is owed to a window is owed to it until it is told, while its panel and its widget are
there and the watch finds its peer linked. -/
private theorem owed_run (told : before <+: (run moves).told place)
    (stays : ∀ early, early <+: later →
      ∃ w, (run (moves ++ early)).watcher? place = some w ∧ w.opened = opened)
    (alive : ∀ early, early <+: later →
      (widget.bind (run (moves ++ early)).widgetMade?).isSome = true)
    (fires : ∀ early w v rest, early ++ [.turn] <+: later →
      (run (moves ++ early)).watcher? place = some w → w.watch = some v → w.opened = opened →
      (run (moves ++ early)).agenda.next? = some (.watch w.opened, rest) →
      ((run (moves ++ early)).account.peer? v.peer).any Peer.isLinked = true ∧
        asks (reopeningOf v.peer w.pane.shown))
    (owed : (run moves).Owed place opened widget asks before) :
    (run (moves ++ later)).Owed place opened widget asks before := by
  induction later using List.reverseRecOn with
  | nil => rwa [List.append_nil]
  | append_singleton later m ih =>
    have shorter : later <+: later ++ [m] := List.prefix_append _ _
    have earlier := ih (fun early h => stays early (h.trans shorter))
      (fun early h => alive early (h.trans shorter))
      (fun early w v rest h => fires early w v rest (h.trans shorter))
    have stays' := stays (later ++ [m]) (List.prefix_refl _)
    rw [← List.append_assoc] at stays' ⊢
    refine (stepped_run (moves ++ later) m).owed (sound_run _)
      (told.trans (told_grows_run moves later place)) stays' (alive later shorter)
      (fun w v rest here watch since turn next => ?_) earlier
    subst turn
    exact fires later w v rest (List.prefix_refl _) here watch since next

private theorem told_of_owed_of_isIdle (owed : (run moves).Owed place opened widget asks before)
    (idle : (run moves).agenda.isIdle = true) :
    ∃ calls call, (run moves).told place = before ++ calls ∧ call ∈ calls ∧ asks call := by
  have sound := sound_run moves
  cases owed with
  | @unread w v stands since held watch owes =>
    have waits := Agenda.mem_waiting_of_isIdle idle
      (sound.watched place w stands (by rw [watch]; rfl))
    exact absurd owes (PeerView.not_owes_of_no_news (sound.quiet place w v stands watch waits))
  | @queued c queued =>
    exact absurd (Agenda.mem_waiting_of_isIdle idle queued) (sound.uncalled c)
  | @told calls call split said asked => exact ⟨calls, call, split, said, asked⟩

end

/-- After the opening of a panel with a watch its peer migrates. The panel and its widget are there
ever after, and when the watch has its turn, the peer is linked. -/
structure Migrates (o : Opening) (since : List Move) (chat channel : PeerId) (later : List Move)
    (peer : PeerId) (w : Watcher) : Prop where
  opens : (run o.before).OpensWatch o.entry peer
  about : peer = chat ∨ peer = channel
  done : ((run (o.moves since)).account.migrate chat channel).1 = true
  stands : o.Stands (since ++ .change (.migration chat channel) :: later) w
  alive : (w.widget.bind
    (run (o.moves (since ++ .change (.migration chat channel) :: later))).widgetMade?).isSome = true
  linked : ∀ early rest, early ++ [.turn] <+: later →
    (run (o.moves (since ++ .change (.migration chat channel) :: early))).agenda.next? =
      some (.watch w.opened, rest) →
    ((run (o.moves (since ++ .change (.migration chat channel) :: early))).account.peer? peer).any
      Peer.isLinked = true

/-- A call that the watch of a panel has queued since a migration. -/
def Asked (o : Opening) (since : List Move) (chat channel : PeerId) (later : List Move)
    (peer : PeerId) (call : NavCall) : Prop :=
  ∃ early late w, later = early ++ .turn :: late ∧
    Fires o (since ++ .change (.migration chat channel) :: early) peer w ∧
    call = reopeningOf peer w.pane.shown

namespace Migrates

variable {o : Opening} {since later : List Move} {chat channel peer : PeerId} {w : Watcher}

private theorem moves_migration (o : Opening) (since later : List Move) (chat channel : PeerId) :
    o.moves (since ++ .change (.migration chat channel) :: later) =
      o.moves (since ++ [.change (.migration chat channel)]) ++ later := by
  rw [← o.moves_append, List.append_assoc, List.singleton_append]

private theorem owed (migrates : Migrates o since chat channel later peer w)
    (asks : NavCall → Prop) :
    (run (o.moves (since ++ [.change (.migration chat channel)]))).Owed o.place w.opened w.widget
      asks ((run (o.moves since)).told o.place) := by
  obtain ⟨old, stood, continues⟩ := migrates.stands.before
  obtain ⟨v, watch, about⟩ := Option.map_eq_some_iff.mp (stood.opensWatch_iff.mp migrates.opens)
  have fits := (sound_run (o.moves since)).fits o.place old stood.here
  have owes := Account.owes_migrate (fits.inside v watch) (fits.aspects v watch)
    (about ▸ migrates.about) migrates.done
  -- the step of the migration leaves the panel and its watch as they stand
  rw [o.moves_append, run_append_singleton, play, after_inStep]
  exact .unread (w := old) (v := v) stood.here continues.opened.symm continues.widget.symm watch
    owes

private theorem stays {early : List Move} (migrates : Migrates o since chat channel later peer w)
    (h : early <+: later) :
    ∃ old, o.Stands (since ++ .change (.migration chat channel) :: early) old ∧
      old.Continues w := by
  obtain ⟨late, rfl⟩ := h
  have stands := migrates.stands
  rw [← List.cons_append, ← List.append_assoc] at stands
  exact stands.before

private theorem alive_since {early : List Move}
    (migrates : Migrates o since chat channel later peer w) (h : early <+: later) :
    (w.widget.bind
      (run (o.moves (since ++ .change (.migration chat channel) :: early))).widgetMade?).isSome =
        true := by
  obtain ⟨old, stood, continues⟩ := migrates.stays List.nil_prefix
  have fits := (sound_run _).fits o.place old stood.here
  obtain ⟨late, rfl⟩ := h
  have alive := migrates.alive
  cases held : w.widget with
  | none =>
    rw [held] at alive
    cases alive
  | some made =>
    have made_le := fits.widget made (continues.widget.symm.trans held)
    rw [moves_migration, List.append_nil] at made_le
    rw [held, moves_migration, ← List.append_assoc] at alive
    rw [moves_migration]
    exact widgetMade?_before alive (Nat.le_trans made_le (step_le_run _ early))

private theorem fires {early : List Move} {x : Watcher} {v : PeerView} {rest : Agenda Task}
    (migrates : Migrates o since chat channel later peer w) (h : early ++ [.turn] <+: later)
    (stands : o.Stands (since ++ .change (.migration chat channel) :: early) x)
    (watch : x.watch = some v)
    (next : (run (o.moves (since ++ .change (.migration chat channel) :: early))).agenda.next? =
      some (.watch x.opened, rest)) :
    Fires o (since ++ .change (.migration chat channel) :: early) peer x ∧ v.peer = peer := by
  have watches := stands.opensWatch_iff.mp migrates.opens
  rw [watch] at watches
  cases watches
  have same : w.opened = x.opened := migrates.stands.opened.trans stands.opened.symm
  exact ⟨stands.fires watch next (migrates.linked early rest h (same ▸ next)), rfl⟩

private theorem told (migrates : Migrates o since chat channel later peer w)
    (idle : (run (o.moves (since ++ .change (.migration chat channel) :: later))).agenda.isIdle =
      true) :
    ∃ calls call,
      (run (o.moves (since ++ .change (.migration chat channel) :: later))).told o.place =
        (run (o.moves since)).told o.place ++ calls ∧ call ∈ calls ∧
      Asked o since chat channel later peer call := by
  have before : (run (o.moves since)).told o.place <+:
      (run (o.moves (since ++ [.change (.migration chat channel)]))).told o.place := by
    rw [o.moves_append]
    exact told_grows_run (o.moves since) _ o.place
  have owed : (run (o.moves (since ++ .change (.migration chat channel) :: later))).Owed o.place
      w.opened w.widget (Asked o since chat channel later peer)
      ((run (o.moves since)).told o.place) := by
    rw [moves_migration]
    refine owed_run before (fun early h => ?_) (fun early h => ?_)
      (fun early x v rest h here watch opened next => ?_) (migrates.owed _)
    · obtain ⟨old, stood, continues⟩ := migrates.stays h
      rw [← moves_migration]
      exact ⟨old, stood.here, continues.opened.symm⟩
    · rw [← moves_migration]
      exact migrates.alive_since h
    · rw [← moves_migration] at here next ⊢
      obtain ⟨fires, rfl⟩ :=
        migrates.fires h ⟨here, opened.trans migrates.stands.opened⟩ watch next
      obtain ⟨late, split⟩ := h
      rw [List.append_assoc, List.singleton_append] at split
      exact ⟨fires.linked, early, late, x, split.symm, fires, rfl⟩
  exact told_of_owed_of_isIdle owed idle

end Migrates

/-- A window is told only what a watch has queued that has found its peer linked, while its panel
stood there, and only while its widget is there. It is told of every migration of the peer of such a
panel by the time all work is done, if the panel and its widget are there until then and the watch
finds its peer linked. -/
theorem reopened_on_migration :
    (∀ moves m place, (run (moves ++ [m])).told place = (run moves).told place ∨
      ∃ o since back peer w, m = .turn ∧ moves = o.moves since ++ .turn :: back ∧
        place = o.place ∧ Fires o since peer w ∧
        (w.widget.bind (run moves).widgetMade?).isSome = true ∧
        (run (moves ++ [m])).told place =
          (run moves).told place ++ [reopeningOf peer w.pane.shown]) ∧
    ∀ o since chat channel later peer w, Migrates o since chat channel later peer w →
      (run (o.moves (since ++ .change (.migration chat channel) :: later))).agenda.isIdle = true →
      ∃ calls call,
        (run (o.moves (since ++ .change (.migration chat channel) :: later))).told o.place =
          (run (o.moves since)).told o.place ++ calls ∧ call ∈ calls ∧
        Asked o since chat channel later peer call :=
  ⟨told_run_cases, fun _ _ _ _ _ _ _ migrates idle => migrates.told idle⟩

/-- A chat is stored, and a channel, and a panel of the chat is opened. -/
def chatOpening : Opening where
  before := [.change (.peer { id := ⟨1⟩, kind := .chat, name := "Chat" }),
    .change (.peer { id := ⟨2⟩, kind := .channel, name := "Channel" }),
    .makeWidget "widget" true .layer, .store "profile" (.profile ⟨1⟩ none),
    .store "files" (.media ⟨1⟩ none .file)]
  place := "panel"
  entry := "profile"
  widget := some "widget"

/-- The panel shows another section by the time its chat becomes the channel. -/
theorem chat_reopened_as_channel :
    ∃ w, Migrates chatOpening [.turn, .switchTo "panel" "files"] ⟨1⟩ ⟨2⟩
        [.turn, .turn, .refresh, .turn] ⟨1⟩ w ∧
      ∃ calls call, (run (chatOpening.moves [.turn, .switchTo "panel" "files",
          .change (.migration ⟨1⟩ ⟨2⟩), .turn, .turn, .refresh, .turn])).told "panel" =
            (run (chatOpening.moves [.turn, .switchTo "panel" "files"])).told "panel" ++ calls ∧
        call ∈ calls ∧
        Asked chatOpening [.turn, .switchTo "panel" "files"] ⟨1⟩ ⟨2⟩ [.turn, .turn, .refresh, .turn]
          ⟨1⟩ call := by
  have stands : ((run (chatOpening.moves [.turn, .switchTo "panel" "files",
      .change (.migration ⟨1⟩ ⟨2⟩), .turn, .turn, .refresh, .turn])).watcher? "panel").isSome =
        true := by decide +kernel
  obtain ⟨w, here⟩ := Option.isSome_iff_exists.mp stands
  have facts : ((run (chatOpening.moves [.turn, .switchTo "panel" "files",
      .change (.migration ⟨1⟩ ⟨2⟩), .turn, .turn, .refresh, .turn])).watcher? "panel").map
        (fun w => (w.opened, w.widget)) = some (6, some 3) := by decide +kernel
  rw [here] at facts
  have opened : w.opened = 6 := congrArg Prod.fst (Option.some.inj facts)
  have held : w.widget = some 3 := congrArg Prod.snd (Option.some.inj facts)
  have linked : ∀ n < 4, ((run (chatOpening.moves ([.turn, .switchTo "panel" "files"] ++
      .change (.migration ⟨1⟩ ⟨2⟩) :: [.turn, .turn, .refresh, .turn].take n))).account.peer? ⟨1⟩
        ).any Peer.isLinked = true := by decide +kernel
  have migrates : Migrates chatOpening [.turn, .switchTo "panel" "files"] ⟨1⟩ ⟨2⟩
      [.turn, .turn, .refresh, .turn] ⟨1⟩ w := {
    opens := ⟨.profile ⟨1⟩ none, { id := ⟨1⟩, kind := .chat, name := "Chat" }, by decide +kernel⟩
    about := .inl rfl
    done := by decide +kernel
    stands := ⟨here, by rw [opened]; decide +kernel⟩
    alive := by rw [held]; decide +kernel
    linked := fun early rest h _ => by
      have short := h.length_le
      have cut := List.prefix_iff_eq_take.mp ((List.prefix_append early [.turn]).trans h)
      rw [cut]
      exact linked early.length (by simp at short; omega) }
  exact ⟨w, migrates, reopened_on_migration.2 _ _ _ _ _ _ w migrates (by decide +kernel)⟩

end Desk

end PeerPanel
