import PeerPanel.Proofs.Desk.Calls

/-!
How often a panel is opened anew.

The watch of a panel asks for its panel to be opened anew once for every notice of a migration that
it meets, and once for the present state with which it begins. The present state is looked at when
the watch has its first turn. A migration between the opening of the panel and that turn is met
twice, as the present state and as a notice (`reopened_twice`); a watch that begins before its peer
is linked asks once for each notice, and no more (`reopenings_le_migrations`).

What is carried along is a balance: the requests and the notices that are yet to be met are no more
than the notices that were published since the opening, and one if the watch has begun with a linked
peer (`Opening.Counted`).
-/

set_option autoImplicit false
set_option relaxedAutoImplicit false

namespace PeerPanel

/-- Whether a notice is one of a migration of a peer. -/
def PeerNotice.isMigrationOf (peer : PeerId) (n : PeerNotice) : Bool :=
  n.peer = peer ∧ n.aspects.migration

private theorem PeerView.concerns_of_ofMigration {v : PeerView} (h : v.aspects = .ofMigration) :
    v.concerns = PeerNotice.isMigrationOf v.peer := by
  funext n
  simp [concerns, PeerNotice.isMigrationOf, h, PeerAspects.meets, PeerAspects.ofMigration]

namespace Desk

section

variable {d e : Desk} {m : Move} {place : String} {w : Watcher}

theorem Stepped.account_cases (h : Stepped d m e) :
    e.account = d.account ∨ ∃ c, m = .change c ∧ e.account = d.account.apply c := by
  cases h with
  | @host e host =>
    rw [e.alike_stir.account]
    exact host.account
  | still alike => exact .inl alike.account
  | aside _ _ _ _ alike => exact .inl alike.account
  | reads _ _ _ _ _ _ account => exact .inl account
  | putOff => exact .inl rfl
  | tells _ _ _ account => exact .inl account
  | loses => exact .inl rfl

private theorem Stepped.exists_news (h : Stepped d m e) :
    ∃ news, e.account.peerNotices =
        { d.account.peerNotices with sent := d.account.peerNotices.sent ++ news } ∧
      (m = .turn → e.account = d.account ∧ news = []) := by
  rcases h.account_cases with same | ⟨c, rfl, changed⟩
  · exact ⟨[], by rw [same, List.append_nil], fun _ => ⟨same, rfl⟩⟩
  · obtain ⟨news, sent⟩ := d.account.exists_sent_apply c
    exact ⟨news, by rw [changed, sent], by simp⟩

private theorem Stepped.watch_cases (h : Stepped d m e) (stands : e.watcher? place = some w) :
    (∃ old, d.watcher? place = some old ∧ w.opened = old.opened ∧
        (w.watch = old.watch ∨
          m = .turn ∧ ∃ v rest, old.watch = some v ∧
            d.agenda.next? = some (.watch old.opened, rest))) ∨
      ∃ name widget entry, m = .openPanel place name widget ∧
        w = d.openedWatcher entry widget := by
  have same (watchers : e.watcher? = d.watcher?) :
      ∃ old, d.watcher? place = some old ∧ w.opened = old.opened ∧
        (w.watch = old.watch ∨
          m = .turn ∧ ∃ v rest, old.watch = some v ∧
            d.agenda.next? = some (.watch old.opened, rest)) :=
    ⟨w, by rw [← watchers, stands], rfl, .inl rfl⟩
  cases h with
  | @host e h =>
    rw [e.alike_stir.watcher?] at stands
    rcases h.watcher_cases stands with ⟨old, shown, there, rfl⟩ | ⟨n, x, f, opens, -, rfl⟩
    · exact .inl ⟨old, there, rfl, .inl rfl⟩
    · exact .inr ⟨n, x, f, opens, rfl⟩
  | still alike => exact .inl (same alike.watcher?)
  | aside _ _ _ _ alike => exact .inl (same alike.watcher?)
  | @reads _ rest there old v v' _ _ turn next old' watched read _ _ _ _ _ _ update =>
    rcases watcher?_update_cases update stands with ⟨rfl, rfl⟩ | ⟨-, kept⟩
    · exact .inl ⟨old, old', rfl, .inr ⟨turn, v, rest, watched, next⟩⟩
    · exact .inl ⟨w, kept, rfl, .inl rfl⟩
  | putOff => exact .inl (same rfl)
  | tells _ _ _ _ _ _ watchers => exact .inl (same watchers)
  | loses => exact .inl (same rfl)

theorem Sound.turn_of_watch (sound : d.Sound) {rest : Agenda Task} {v v' : PeerView}
    {notices : List PeerNotice} (next : d.agenda.next? = some (.watch w.opened, rest))
    (stands : d.watcher? place = some w) (watch : w.watch = some v)
    (reads : v.readAll ((v.pause? d.account).getD d.account) = (notices, v')) :
    (d.play .turn).watcher? place = some { w with watch := some v' } ∧
      d.firings w.opened =
        if (d.account.peer? v.peer).any Peer.isLinked then notices.length else 0 := by
  obtain ⟨m, found, rfl⟩ := watching?_of_watcher? sound.toPlaced stands watch
  obtain ⟨mounted, -, -⟩ := sound.mounted?_of_watching? found
  have owns := sound.owned place m mounted
  obtain ⟨runs, fires⟩ := play_turn_of_watching? next found
  constructor
  · obtain ⟨panel, watcher, f, rfl, -, -, turn⟩ :=
      runWatch_eq (d := { d with agenda := rest }) place owns watch reads
    rw [runs, turn, ← watcher]
    exact (congrFun (sound.watcher?_mapOpened mounted f) place).trans (Function.update_self ..)
  · rw [fires, (Panel.watchTurn_of_source owns watch reads).1, peer?_of_pause]

private theorem capacity_peerNotices_run (moves : List Move) :
    (run moves).account.peerNotices.capacity = 256 := by
  induction moves using List.reverseRecOn with
  | nil => rfl
  | append_singleton moves m ih =>
    obtain ⟨news, sent, -⟩ := (stepped_run moves m).exists_news
    rw [sent]
    exact ih

end

private theorem place_peerNotices_le_run (front back : List Move) :
    (run front).account.peerNotices.place ≤ (run (front ++ back)).account.peerNotices.place := by
  induction back using List.reverseRecOn with
  | nil => exact Nat.le_of_eq (by rw [List.append_nil])
  | append_singleton back m ih =>
    obtain ⟨news, sent, -⟩ := (stepped_run (front ++ back) m).exists_news
    rw [← List.append_assoc, sent]
    refine Nat.le_trans ih ?_
    simp [Feed.place]

/-- How often the watch of the panel that was opened in a step fires in a move. -/
def firingsIn (d : Desk) (opened : Nat) : Move → Nat
  | .turn => d.firings opened
  | _ => 0

/-- How often it fires in a sequence of moves. -/
def firingsOver (opened : Nat) : Desk → List Move → Nat
  | _, [] => 0
  | d, m :: later => d.firingsIn opened m + firingsOver opened (d.play m) later

private theorem firingsOver_append_singleton (opened : Nat) (d : Desk) (moves : List Move)
    (m : Move) :
    firingsOver opened d (moves ++ [m]) =
      firingsOver opened d moves + (moves.foldl play d).firingsIn opened m := by
  induction moves generalizing d with
  | nil => exact Nat.add_comm _ _
  | cons first later ih =>
    rw [List.cons_append, firingsOver, firingsOver, ih, List.foldl_cons, Nat.add_assoc]

namespace Opening

variable (o : Opening) (since : List Move) (peer : PeerId)

/-- The step in which the panel is opened. -/
def opened : Nat := (run o.before).step + 1

/-- How often the watch of the panel has asked for it to be opened anew. -/
def requests : Nat := firingsOver o.opened (run (o.moves [])) since

/-- The number of migrations of a peer that were published since the opening. -/
def published : Nat :=
  ((run (o.moves since)).account.peerNotices.since (run o.before).account.peerNotices.place).countP
    (PeerNotice.isMigrationOf peer)

/-- The watch of the panel never has more notices to read than are held for it. -/
def KeepsUp : Prop :=
  ∀ early w v, early <+: since → o.Stands early w → w.watch = some v →
    ((run (o.moves early)).account.peerNotices.since v.place).length ≤ 256

/-- The watch of the panel has its first turn next, and the peer is linked. -/
structure BeginsLinked : Prop where
  stands : ∃ w v, o.Stands since w ∧ w.watch = some v ∧ v.started = false
  next : ∃ rest, (run (o.moves since)).agenda.next? = some (.watch o.opened, rest)
  linked : ((run (o.moves since)).account.peer? peer).any Peer.isLinked = true

/-- The balance of the watch, with what it asked for in the place of the present state. -/
structure Counted (extra : Nat) : Prop where
  small : extra ≤ 1
  begun : extra = 1 → ∃ early, early ++ [.turn] <+: since ∧ o.BeginsLinked early peer
  requests : o.requests since ≤ o.published since peer + extra
  unread : ∀ w v, o.Stands since w → w.watch = some v →
    o.requests since + v.unread (run (o.moves since)).account ≤ o.published since peer + extra ∧
      (v.started = false → extra = 0)

variable {o since peer} {w : Watcher} {v : PeerView}

theorem requests_append_singleton (o : Opening) (since : List Move) (m : Move) :
    o.requests (since ++ [m]) =
      o.requests since + (run (o.moves since)).firingsIn o.opened m := by
  have now : since.foldl play (run (o.moves [])) = run (o.moves since) := by
    rw [← List.nil_append since, moves_append, List.nil_append]
    simp only [run, List.foldl_append]
  rw [requests, firingsOver_append_singleton, now]
  rfl

private theorem stands_of_opened {place : String}
    (here : (run (o.moves since)).watcher? place = some w)
    (same : w.opened = o.opened) : place = o.place ∧ o.Stands since w := by
  have there := here
  rw [← List.nil_append since, moves_append] at there
  obtain ⟨old, first, continues⟩ := stood_before there (same ▸ o.step_le [])
  rcases (stepped_run o.before _).watcher_cases first with
    ⟨older, before, kept⟩ | ⟨name, widget, e, opens, -, -⟩
  · have early := ((sound_run o.before).fits place older before).opened
    have late := kept.opened.symm.trans (continues.opened.symm.trans same)
    rw [opened] at late
    omega
  · cases opens
    exact ⟨rfl, here, same⟩

theorem exists_turn_of_firingsIn_pos {m : Move}
    (fires : 0 < (run (o.moves since)).firingsIn o.opened m) :
    m = .turn ∧ ∃ w v rest, o.Stands since w ∧ w.watch = some v ∧
      (run (o.moves since)).agenda.next? = some (.watch w.opened, rest) := by
  cases m with
  | turn =>
    rw [firingsIn, firings] at fires
    split at fires
    · next task rest place mounted v next found =>
      split at fires
      · next same =>
        subst same
        obtain ⟨here, opened, watch⟩ := watcher?_of_watching? (sound_run _).toPlaced found
        obtain ⟨-, stands⟩ := stands_of_opened here opened
        refine ⟨rfl, mounted.watcher, v, rest, stands, watch, ?_⟩
        rw [next, show mounted.watcher.opened = o.opened from opened]
      · cases fires
    · cases fires
  | _ => cases fires

private theorem place_le (o : Opening) (since : List Move) :
    (run o.before).account.peerNotices.place ≤ (run (o.moves since)).account.peerNotices.place :=
  place_peerNotices_le_run o.before _

private theorem Stands.concerns (stands : o.Stands since w) (watch : w.watch = some v)
    (opens : (run o.before).OpensWatch o.entry peer) :
    v.peer = peer ∧ v.concerns = PeerNotice.isMigrationOf peer ∧
      v.place ≤ (run (o.moves since)).account.peerNotices.place := by
  have watches := stands.opensWatch_iff.mp opens
  rw [watch] at watches
  cases watches
  have fits := (sound_run (o.moves since)).fits o.place w stands.here
  exact ⟨rfl, PeerView.concerns_of_ofMigration (fits.aspects v watch), fits.inside v watch⟩

private theorem exists_news (o : Opening) (since : List Move) (peer : PeerId) (m : Move) :
    ∃ news, o.published (since ++ [m]) peer = o.published since peer + news ∧
      (m = .turn → news = 0) ∧
      ∀ v : PeerView, v.concerns = PeerNotice.isMigrationOf peer →
        v.place ≤ (run (o.moves since)).account.peerNotices.place →
        v.unread (run (o.moves (since ++ [m]))).account =
          v.unread (run (o.moves since)).account + news := by
  obtain ⟨news, sent, turn⟩ := (stepped_run (o.moves since) m).exists_news
  rw [← moves_append] at sent turn
  refine ⟨news.countP (PeerNotice.isMigrationOf peer), ?_, ?_, ?_⟩
  · rw [published, sent, Feed.since, List.drop_append_of_le_length (o.place_le since),
      List.countP_append]
    rfl
  · intro here
    rw [(turn here).2]
    rfl
  · intro v concerns inside
    rw [PeerView.unread_of_sent inside sent, concerns]

private theorem counted_nil (o : Opening) (peer : PeerId) : o.Counted [] peer 0 where
  small := Nat.zero_le 1
  begun h := by cases h
  requests := Nat.zero_le _
  unread w v stands watch := by
    refine ⟨?_, fun _ => rfl⟩
    have here : (run (o.before ++ [.openPanel o.place o.entry o.widget])).watcher? o.place =
        some w := stands.here
    have nothing : v.unread (run (o.moves [])).account = 0 := by
      rcases (stepped_run o.before _).watcher_cases here with
        ⟨old, before, continues⟩ | ⟨name, widget, e, opens, -, rfl⟩
      · have early := ((sound_run o.before).fits o.place old before).opened
        have late := continues.opened.symm.trans stands.opened
        omega
      · obtain ⟨peer, record, -, -, -, -, rfl⟩ := Pane.migrationWatch_eq_some_iff.mp watch
        have same : (run (o.moves [])).account = (run o.before).account := by
          rcases (stepped_run o.before _).account_cases with same | ⟨c, changes, -⟩
          · exact same
          · cases changes
        rw [same]
        exact congrArg _ (Feed.since_place _)
    rw [nothing]
    exact Nat.zero_le _

private theorem Counted.turn {extra : Nat} {rest : Agenda Task}
    (counted : o.Counted since peer extra)
    (opens : (run o.before).OpensWatch o.entry peer) (keeps : o.KeepsUp since)
    (stands : o.Stands since w) (watch : w.watch = some v)
    (next : (run (o.moves since)).agenda.next? = some (.watch w.opened, rest)) :
    ∃ extra, o.Counted (since ++ [.turn]) peer extra := by
  have opened : w.opened = o.opened := stands.opened
  obtain ⟨rfl, -, inside⟩ := stands.concerns watch opens
  have held : (run (o.moves since)).account.peerNotices.oldest ≤ v.place := by
    rw [Feed.oldest_le_iff, capacity_peerNotices_run]
    exact keeps since w v (List.prefix_refl _) stands watch
  rcases reads : v.readAll ((v.pause? (run (o.moves since)).account).getD
    (run (o.moves since)).account) with ⟨notices, v'⟩
  obtain ⟨started', less, balance⟩ := PeerView.length_add_unread inside held reads
  obtain ⟨here, fires⟩ := (sound_run (o.moves since)).turn_of_watch next stands.here watch reads
  have asks := o.requests_append_singleton since .turn
  rw [firingsIn, ← opened, fires] at asks
  have still : (run (o.moves (since ++ [.turn]))).account = (run (o.moves since)).account := by
    rw [moves_append]
    rcases (stepped_run (o.moves since) .turn).account_cases with same | ⟨c, changes, -⟩
    · exact same
    · cases changes
  have published : o.published (since ++ [.turn]) v.peer = o.published since v.peer := by
    unfold published
    rw [still]
  obtain ⟨before, unbegun⟩ := counted.unread w v stands watch
  -- the turn publishes nothing, so it is enough to balance what is asked for with what is left
  have finish (extra' : Nat) (small : extra' ≤ 1)
      (begun : extra' = 1 → ∃ early, early ++ [.turn] <+: since ++ [.turn] ∧
        o.BeginsLinked early v.peer)
      (balanced : o.requests (since ++ [.turn]) + v'.unread (run (o.moves since)).account ≤
        o.published since v.peer + extra') : o.Counted (since ++ [.turn]) v.peer extra' := by
    refine ⟨small, begun, ?_, fun x u stands' watch' => ?_⟩
    · rw [published]
      exact Nat.le_trans (Nat.le_add_right _ _) balanced
    · have now := stands'.here
      rw [moves_append, run_append_singleton, here] at now
      cases now
      cases watch'
      rw [published, still]
      exact ⟨balanced, fun unstarted => by rw [started'] at unstarted; cases unstarted⟩
  have earlier (one : extra = 1) :
      ∃ early, early ++ [.turn] <+: since ++ [.turn] ∧ o.BeginsLinked early v.peer := by
    obtain ⟨early, before, begins⟩ := counted.begun one
    exact ⟨early, before.trans (List.prefix_append _ _), begins⟩
  by_cases linked : ((run (o.moves since)).account.peer? v.peer).any Peer.isLinked = true
  · rw [if_pos linked] at asks
    cases started : v.started with
    | true =>
      rw [started, if_pos rfl] at balance
      exact ⟨extra, finish extra counted.small earlier (by omega)⟩
    | false =>
      -- the present state is asked for, and this is the first turn
      obtain rfl := unbegun started
      rw [started] at balance
      have begins : o.BeginsLinked since v.peer :=
        ⟨⟨w, v, stands, watch, started⟩, ⟨rest, opened ▸ next⟩, linked⟩
      exact ⟨1, finish 1 (Nat.le_refl _) (fun _ => ⟨since, List.prefix_refl _, begins⟩)
        (by simp at balance; omega)⟩
  · rw [if_neg linked] at asks
    exact ⟨extra, finish extra counted.small earlier (by omega)⟩

private theorem Counted.append_singleton {extra : Nat} (counted : o.Counted since peer extra)
    (opens : (run o.before).OpensWatch o.entry peer) (keeps : o.KeepsUp since) (m : Move) :
    ∃ extra, o.Counted (since ++ [m]) peer extra := by
  by_cases turn : m = .turn ∧ ∃ w v rest, o.Stands since w ∧ w.watch = some v ∧
      (run (o.moves since)).agenda.next? = some (.watch w.opened, rest)
  · obtain ⟨rfl, w, v, rest, stands, watch, next⟩ := turn
    exact counted.turn opens keeps stands watch next
  · have quiet : (run (o.moves since)).firingsIn o.opened m = 0 := by
      by_contra fires
      exact turn (exists_turn_of_firingsIn_pos (Nat.pos_of_ne_zero fires))
    have asks := o.requests_append_singleton since m
    obtain ⟨news, published, -, met⟩ := o.exists_news since peer m
    refine ⟨extra, counted.small, fun one => ?_, ?_, fun x u stands watch => ?_⟩
    · obtain ⟨early, before, begins⟩ := counted.begun one
      exact ⟨early, before.trans (List.prefix_append _ _), begins⟩
    · have := counted.requests
      omega
    · have here := stands.here
      rw [moves_append] at here
      rcases (stepped_run (o.moves since) m).watch_cases here with
        ⟨old, there, same, kept | ⟨rfl, v, rest, watched, next⟩⟩ | ⟨name, widget, e, -, rfl⟩
      · have stood : o.Stands since old := ⟨there, same.symm.trans stands.opened⟩
        have unchanged := kept.symm.trans watch
        obtain ⟨-, concerns, inside⟩ := stood.concerns unchanged opens
        obtain ⟨balanced, unbegun⟩ := counted.unread old u stood unchanged
        refine ⟨?_, unbegun⟩
        rw [met u concerns inside]
        omega
      · have stood : o.Stands since old := ⟨there, same.symm.trans stands.opened⟩
        exact absurd ⟨rfl, old, v, rest, stood, watched, next⟩ turn
      · have early := o.step_le since
        have late : (run (o.moves since)).step + 1 = (run o.before).step + 1 := stands.opened
        omega

private theorem exists_counted (opens : (run o.before).OpensWatch o.entry peer)
    (keeps : o.KeepsUp since) :
    ∃ extra, o.Counted since peer extra := by
  induction since using List.reverseRecOn with
  | nil => exact ⟨0, o.counted_nil peer⟩
  | append_singleton since m ih =>
    have kept : o.KeepsUp since := fun early w v before =>
      keeps early w v (before.trans (List.prefix_append _ _))
    obtain ⟨extra, counted⟩ := ih kept
    exact counted.append_singleton opens kept m

private theorem keepsUp_of_place_le (few : (run (o.moves since)).account.peerNotices.place ≤ 256) :
    o.KeepsUp since := by
  rintro early w v ⟨late, rfl⟩ - -
  rw [moves_append] at few
  have fewer := place_peerNotices_le_run (o.moves early) late
  rw [Feed.length_since]
  omega

private theorem opened_of_alone (stands : o.Stands [] w)
    (alone : ∀ name widget, .openPanel o.place name widget ∉ since) {x : Watcher}
    (here : (run (o.moves since)).watcher? o.place = some x) : x.opened = o.opened := by
  induction since using List.reverseRecOn generalizing x with
  | nil =>
    have same := stands.here.symm.trans here
    cases same
    exact stands.opened
  | append_singleton since m ih =>
    rw [moves_append] at here
    rcases (stepped_run (o.moves since) m).watcher_cases here with
      ⟨old, there, continues⟩ | ⟨name, widget, e, rfl, -⟩
    · rw [continues.opened]
      exact ih (fun name widget mem => alone name widget (List.mem_append_left _ mem)) there
    · exact absurd (List.mem_append_right since (List.mem_singleton_self _)) (alone name widget)

/-- A window is asked for no more than the watch of its panel has requested, and what it had been
asked for before. -/
theorem asked_le_requests (stands : o.Stands [] w)
    (alone : ∀ name widget, .openPanel o.place name widget ∉ since) :
    (run (o.moves since)).asked o.place ≤ (run o.before).asked o.place + o.requests since := by
  induction since using List.reverseRecOn with
  | nil =>
    rw [moves, run_append_singleton]
    rcases asked_play (sound_run o.before) (.openPanel o.place o.entry o.widget) o.place with
      kept | ⟨turn, -⟩
    · exact kept
    · cases turn
  | append_singleton since m ih =>
    have fewer : ∀ name widget, .openPanel o.place name widget ∉ since :=
      fun name widget mem => alone name widget (List.mem_append_left _ mem)
    have before := ih fewer
    rw [requests_append_singleton, moves_append, run_append_singleton]
    rcases asked_play (sound_run (o.moves since)) m o.place with kept | ⟨rfl, x, here, more⟩
    · omega
    · rw [opened_of_alone stands fewer here] at more
      rw [firingsIn]
      omega

end Opening

/-- The watch of a panel asks for no more than what was published since the opening, and once more
at most. That one more is asked for only if the peer is linked when the watch begins; so it is the
one for a peer that was linked at the opening, if nothing has linked the peer in between. Where no
other panel is opened, its window is asked for no more than that. -/
theorem reopenings_le_migrations (o : Opening) {since : List Move} {peer : PeerId} {w : Watcher}
    (stands : o.Stands [] w) (watches : w.watch.map (·.peer) = some peer)
    (keeps : o.KeepsUp since) :
    o.requests since ≤ o.published since peer + 1 ∧
    ((∀ early, early ++ [.turn] <+: since → o.BeginsLinked early peer →
        ((run o.before).account.peer? peer).any Peer.isLinked = true) →
      o.requests since ≤ o.published since peer +
        if ((run o.before).account.peer? peer).any Peer.isLinked then 1 else 0) ∧
    ((∀ name widget, .openPanel o.place name widget ∉ since) →
      (run (o.moves since)).asked o.place ≤ (run o.before).asked o.place + o.requests since) := by
  obtain ⟨extra, counted⟩ := Opening.exists_counted (stands.opensWatch_iff.mpr watches) keeps
  have small := counted.small
  have total := counted.requests
  refine ⟨by omega, fun settled => ?_, Opening.asked_le_requests stands⟩
  by_cases one : extra = 1
  · obtain ⟨early, before, begins⟩ := counted.begun one
    rw [if_pos (settled early before begins)]
    omega
  · exact Nat.le_trans total (by omega)

/-- The watch of the chat has its first turn before the chat becomes a channel. -/
def settled : List Move :=
  [.turn, .change (.migration ⟨1⟩ ⟨2⟩), .turn, .turn, .refresh, .turn]

/-- A panel whose watch has begun by the time of the migration is asked for once. -/
theorem settled_reopened_once :
    chatOpening.requests settled ≤ 1 ∧ (run (chatOpening.moves settled)).asked "panel" ≤ 1 := by
  have there : ((run (chatOpening.moves [])).watcher? "panel").isSome = true := by decide +kernel
  obtain ⟨w, here⟩ := Option.isSome_iff_exists.mp there
  have facts : ((run (chatOpening.moves [])).watcher? "panel").map
      (fun w => (w.opened, w.watch.map (·.peer))) = some (6, some ⟨1⟩) := by decide +kernel
  rw [here] at facts
  have opened : w.opened = 6 := congrArg Prod.fst (Option.some.inj facts)
  have watches : w.watch.map (·.peer) = some ⟨1⟩ := congrArg Prod.snd (Option.some.inj facts)
  have stands : chatOpening.Stands [] w := ⟨here, by rw [opened]; decide +kernel⟩
  have few : (run (chatOpening.moves settled)).account.peerNotices.place ≤ 256 := by decide +kernel
  obtain ⟨-, bound, asked⟩ :=
    reopenings_le_migrations chatOpening stands watches (Opening.keepsUp_of_place_le few)
  -- before it is linked, or after its watch has begun
  have begun : ∀ n < 6,
      ((run (chatOpening.moves (settled.take n))).account.peer? ⟨1⟩).any Peer.isLinked = false ∨
        ((run (chatOpening.moves (settled.take n))).watcher? "panel").all
          (fun w => w.watch.all (·.started)) = true := by decide +kernel
  have requests := bound fun early before begins => by
    have short := before.length_le
    have cut := List.prefix_iff_eq_take.mp ((List.prefix_append early [.turn]).trans before)
    obtain ⟨⟨x, v, stood, watch, unstarted⟩, -, linked⟩ := begins
    rcases begun early.length (by simp [settled] at short; omega) with unlinked | started
    · rw [← cut, linked] at unlinked
      cases unlinked
    · have now : (run (chatOpening.moves early)).watcher? "panel" = some x := stood.here
      rw [← cut, now, Option.all_some, watch, Option.all_some, unstarted] at started
      cases started
  have published : chatOpening.published settled ⟨1⟩ = 1 := by decide +kernel
  have unlinked : ((run chatOpening.before).account.peer? ⟨1⟩).any Peer.isLinked = false := by
    decide +kernel
  rw [published, unlinked] at requests
  have before : (run chatOpening.before).asked "panel" = 0 := by decide +kernel
  have told := asked (by simp [settled])
  rw [show chatOpening.place = "panel" from rfl, before] at told
  exact ⟨requests, by simp at requests; omega⟩

/-- The chat becomes a channel before its watch has had its first turn. -/
def unsettled : List Move :=
  [.change (.migration ⟨1⟩ ⟨2⟩), .turn, .turn, .turn, .refresh, .turn, .turn]

/-- The one migration is met as the present state and as a notice. -/
theorem reopened_twice :
    chatOpening.KeepsUp unsettled ∧
      ((run chatOpening.before).account.peer? ⟨1⟩).any Peer.isLinked = false ∧
      chatOpening.published unsettled ⟨1⟩ = 1 ∧ chatOpening.requests unsettled = 2 ∧
      (run (chatOpening.moves unsettled)).told "panel" =
        [reopeningOf ⟨1⟩ .profile, reopeningOf ⟨1⟩ .profile] :=
  ⟨Opening.keepsUp_of_place_le (by decide +kernel), by decide +kernel, by decide +kernel,
    by decide +kernel, by decide +kernel⟩

end Desk

end PeerPanel
