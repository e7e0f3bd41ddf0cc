import PeerPanel.Proofs.Desk.Moves

/-!
What holds at a desk at all times.

Every panel with a watch for migrations has a task for it on the agenda, and when that task waits,
the watch has read everything (`Desk.Sound`). A panel keeps its widget and the peer that it watches
(`Stepped.watcher_cases`).
-/

set_option autoImplicit false
set_option relaxedAutoImplicit false

namespace PeerPanel

private theorem PeerView.pause?_of_no_news {v : PeerView} {a : Account}
    (quiet : v.hasNews a = false) :
    v.pause? a = none := by
  have level : a.peerNotices.sent.length ≤ v.place := by
    simpa [hasNews, Feed.hasNews] using (Bool.or_eq_false_iff.mp quiet).2
  have beyond : ¬ a.peerNotices.stop v.place ≤ a.peerNotices.place := by
    unfold Feed.stop Feed.oldest Feed.place Feed.stride
    split <;> omega
  rw [pause?, Feed.pause?, if_neg beyond, Option.map_none]

theorem PeerView.not_owes_of_no_news {v : PeerView} {a : Account} (quiet : v.hasNews a = false) :
    ¬ v.Owes a := by
  obtain ⟨begun, spent⟩ := Bool.or_eq_false_iff.mp quiet
  have level : a.peerNotices.sent.length ≤ v.place := by simpa [Feed.hasNews] using spent
  rintro (unstarted | missed | ⟨n, unread, -⟩)
  · rw [unstarted] at begun
    cases begun
  · unfold Feed.oldest at missed
    omega
  · rw [Feed.since, List.drop_eq_nil_of_le level] at unread
    cases unread

theorem Pane.migrationWatch_eq_some_iff {p : Pane} {a : Account} {v : PeerView} :
    p.migrationWatch a = some v ↔
      ∃ peer record, p.subject.peer? = some peer ∧ a.peer? peer = some record ∧
        record.kind ≠ .user ∧ p.migrated = none ∧ v = a.peerView peer .ofMigration := by
  unfold migrationWatch
  cases subject : p.subject.peer? with
  | none => simp
  | some peer =>
    cases found : a.peer? peer with
    | none => simp [found]
    | some record =>
      by_cases user : record.kind = .user
      · simp [found, user]
      · cases migrated : p.migrated <;> simp [found, eq_comm]

/-- A watcher that is what another one has become. -/
structure Watcher.Continues (old w : Watcher) : Prop where
  opened : w.opened = old.opened
  widget : w.widget = old.widget
  peer : w.watch.map (·.peer) = old.watch.map (·.peer)

theorem Watcher.Continues.refl (w : Watcher) : w.Continues w := ⟨rfl, rfl, rfl⟩

theorem Watcher.Continues.trans {u v w : Watcher} (h : u.Continues v) (h' : v.Continues w) :
    u.Continues w :=
  ⟨h'.opened.trans h.opened, h'.widget.trans h.widget, h'.peer.trans h.peer⟩

namespace Desk

open Account (Change)

variable {d e : Desk} {m : Move} {place : String} {w : Watcher}

theorem Host.watcher_cases (h : Host d m e) (stands : e.watcher? place = some w) :
    (∃ old shown, d.watcher? place = some old ∧
        w = { old with pane := { old.pane with shown } }) ∨
      ∃ name widget entry, m = .openPanel place name widget ∧
        d.entries.get? name = some entry ∧ w = d.openedWatcher entry widget := by
  rcases h.places with same | ⟨there, next, update, how⟩
  · rw [same] at stands
    exact .inl ⟨w, w.pane.shown, stands, rfl⟩
  · rw [update] at stands
    by_cases here : place = there
    · subst here
      rw [Function.update_self] at stands
      subst stands
      cases how with
      | shows shown old => exact .inl ⟨_, shown, old, rfl⟩
      | opened opens stored => exact .inr ⟨_, _, _, opens, stored, rfl⟩
    · rw [Function.update_of_ne here] at stands
      exact .inl ⟨w, w.pane.shown, stands, rfl⟩

/-- After a move a panel is what it has become, or it was opened. -/
theorem Stepped.watcher_cases (h : Stepped d m e) (stands : e.watcher? place = some w) :
    (∃ old, d.watcher? place = some old ∧ old.Continues w) ∨
      ∃ name widget entry, m = .openPanel place name widget ∧
        d.entries.get? name = some entry ∧ w = d.openedWatcher entry widget := by
  have same {u : Watcher} (there : d.watcher? place = some u) (eq : u = w) :
      ∃ old, d.watcher? place = some old ∧ old.Continues w := by
    subst eq
    exact ⟨u, there, .refl u⟩
  cases h with
  | @host e h =>
    rw [e.alike_stir.watcher?] at stands
    refine (h.watcher_cases stands).imp_left ?_
    rintro ⟨old, shown, there, rfl⟩
    exact ⟨old, there, rfl, rfl, rfl⟩
  | still alike =>
    rw [alike.watcher?] at stands
    exact .inl (same stands rfl)
  | aside _ _ _ _ alike =>
    rw [alike.watcher?] at stands
    exact .inl (same stands rfl)
  | @reads _ _ there old v v' _ _ _ _ old' watched read _ _ _ _ _ _ update =>
    rcases watcher?_update_cases update stands with ⟨rfl, rfl⟩ | ⟨-, kept⟩
    · exact .inl ⟨old, old', rfl, rfl, by simp [watched, read.peer]⟩
    · exact .inl (same kept rfl)
  | putOff => exact .inl (same stands rfl)
  | tells _ _ _ _ _ _ watchers =>
    rw [watchers] at stands
    exact .inl (same stands rfl)
  | loses => exact .inl (same stands rfl)

/-- What holds for the watch of a panel. -/
structure Fits (d : Desk) (w : Watcher) : Prop where
  opened : w.opened ≤ d.step
  widget : ∀ made, w.widget = some made → made ≤ d.step
  inside : ∀ v, w.watch = some v → v.place ≤ d.account.peerNotices.place
  aspects : ∀ v, w.watch = some v → v.aspects = .ofMigration

/-- What holds at a desk at all times. -/
structure Sound (d : Desk) : Prop extends Placed d where
  fits : ∀ place w, d.watcher? place = some w → d.Fits w
  widgets : ∀ b ∈ d.widgets.bindings, b.2.1 ≤ d.step
  watched : ∀ place w, d.watcher? place = some w → w.watch.isSome = true →
    d.agenda.Holds (.watch w.opened)
  quiet : ∀ place w v, d.watcher? place = some w → w.watch = some v →
    .watch w.opened ∈ d.agenda.waiting → v.hasNews d.account = false
  uncalled : ∀ c, .call c ∉ d.agenda.waiting

private theorem Fits.mono (fits : d.Fits w) (later : d.step ≤ e.step)
    (longer : d.account.peerNotices.place ≤ e.account.peerNotices.place) : e.Fits w where
  opened := Nat.le_trans fits.opened later
  widget made h := Nat.le_trans (fits.widget made h) later
  inside v h := Nat.le_trans (fits.inside v h) longer
  aspects := fits.aspects

private theorem Fits.read {v v' : PeerView} {notices : List PeerNotice} (fits : d.Fits w)
    (watch : w.watch = some v) (read : v.ReadOn d.account notices v') :
    d.Fits { w with watch := some v' } where
  opened := fits.opened
  widget := fits.widget
  inside u hu := by
    cases hu
    exact read.inside
  aspects u hu := by
    cases hu
    exact read.aspects.trans (fits.aspects v watch)

namespace Sound

private theorem of_same (sound : d.Sound) (account : e.account = d.account)
    (later : d.step ≤ e.step) (widgets : e.widgets = d.widgets) (watchers : e.watcher? = d.watcher?)
    (tidy : d.Tidy → e.Tidy)
    (held : ∀ place w, d.watcher? place = some w → w.watch.isSome = true →
      d.agenda.Holds (.watch w.opened) → e.agenda.Holds (.watch w.opened))
    (waits : ∀ place w, d.watcher? place = some w → w.watch.isSome = true →
      .watch w.opened ∈ e.agenda.waiting → .watch w.opened ∈ d.agenda.waiting)
    (uncalled : ∀ c, .call c ∉ e.agenda.waiting) : e.Sound where
  toTidy := tidy sound.toTidy
  once p q v w := by
    rw [watchers]
    exact sound.once p q v w
  fits place w stands := by
    rw [watchers] at stands
    exact (sound.fits place w stands).mono later (Nat.le_of_eq (by rw [account]))
  widgets b hb := by
    rw [widgets] at hb
    exact Nat.le_trans (sound.widgets b hb) later
  watched place w stands some := by
    rw [watchers] at stands
    exact held place w stands some (sound.watched place w stands some)
  quiet place w v stands watch waiting := by
    rw [watchers] at stands
    rw [account]
    exact sound.quiet place w v stands watch (waits place w stands (by rw [watch]; rfl) waiting)
  uncalled := uncalled

private theorem fits_openedWatcher (sound : d.Sound) (step : e.step = d.step + 1)
    (account : e.account = d.account) (entry : Entry) (widget : Option String) :
    e.Fits (d.openedWatcher entry widget) where
  opened := Nat.le_of_eq step.symm
  widget made h := by
    obtain ⟨b, bound, rfl⟩ := Option.map_eq_some_iff.mp h
    obtain ⟨name, -, found⟩ := Option.bind_eq_some_iff.mp bound
    have old := sound.widgets _ (Table.mem_bindings_of_get? found)
    rw [step]
    exact Nat.le_succ_of_le old
  inside v h := by
    obtain ⟨peer, record, -, -, -, -, rfl⟩ := Pane.migrationWatch_eq_some_iff.mp h
    rw [account]
    exact Nat.le_refl _
  aspects v h := by
    obtain ⟨peer, record, -, -, -, -, rfl⟩ := Pane.migrationWatch_eq_some_iff.mp h
    rfl

private theorem placed_of_host (sound : d.Sound) (host : Host d m e) : e.Placed where
  toTidy := host.tidy sound.toTidy
  once p q v w hv hw same := by
    rcases host.watcher_cases hv with ⟨v₀, _, hv₀, rfl⟩ | ⟨n, x, f, opens, stored, rfl⟩
    · rcases host.watcher_cases hw with ⟨w₀, _, hw₀, rfl⟩ | ⟨n', x', f', opens', stored', rfl⟩
      · exact sound.once p q v₀ w₀ hv₀ hw₀ same
      · have early := (sound.fits p v₀ hv₀).opened
        have late : v₀.opened = d.step + 1 := same
        omega
    · rcases host.watcher_cases hw with ⟨w₀, _, hw₀, rfl⟩ | ⟨n', x', f', opens', stored', rfl⟩
      · have early := (sound.fits q w₀ hw₀).opened
        have late : d.step + 1 = w₀.opened := same
        omega
      · rw [opens] at opens'
        cases opens'
        rfl

private theorem fits_of_host (sound : d.Sound) (host : Host d m e)
    (stands : e.watcher? place = some w) :
    e.Fits w := by
  have longer : d.account.peerNotices.place ≤ e.account.peerNotices.place := by
    rcases host.account with same | ⟨c, -, same⟩
    · exact Nat.le_of_eq (by rw [same])
    · rw [same]
      exact Account.place_peerNotices_apply d.account c
  have later : d.step ≤ e.step := by
    rw [host.step]
    exact Nat.le_succ _
  rcases host.watcher_cases stands with ⟨old, shown, there, rfl⟩ | ⟨_, _, entry, opens, _, rfl⟩
  · obtain ⟨opened, widget, inside, aspects⟩ := (sound.fits place old there).mono later longer
    exact ⟨opened, widget, inside, aspects⟩
  · have same : e.account = d.account := by
      rcases host.account with same | ⟨c, changes, -⟩
      · exact same
      · rw [opens] at changes
        cases changes
    exact sound.fits_openedWatcher host.step same entry _

private theorem host (sound : d.Sound) (host : Host d m e) : e.stir.Sound := by
  have placed := sound.placed_of_host host
  have stirred := e.alike_stir
  refine ⟨⟨stirred.tidy placed.toTidy, ?_⟩, ?_, ?_, ?_, ?_, ?_⟩
  · intro p q v w
    rw [stirred.watcher?]
    exact placed.once p q v w
  · intro place w stands
    rw [stirred.watcher?] at stands
    have fits := sound.fits_of_host host stands
    exact fits.mono (Nat.le_of_eq stirred.step.symm) (Nat.le_of_eq (by rw [stirred.account]))
  · intro b hb
    rw [stirred.widgets] at hb
    rw [stirred.step, host.step]
    rcases host.widgets b hb with old | fresh
    · exact Nat.le_succ_of_le (sound.widgets b old)
    · exact Nat.le_of_eq fresh
  · intro place w stands some
    rw [stirred.watcher?] at stands
    rcases host.watcher_cases stands with
      ⟨old, shown, there, rfl⟩ | ⟨_, widget, entry, opens, _, rfl⟩
    · exact e.grows_stir.held _ (host.agenda.held _ (sound.watched place old there some))
    · -- the step in which a panel is opened enrolls its watch
      obtain ⟨v, watch⟩ := Option.isSome_iff_exists.mp some
      obtain ⟨mounted, found, -⟩ := watching?_of_watcher? placed stands watch
      have opened : (d.openedWatcher entry widget).opened = e.step := host.step.symm
      rw [opened] at found ⊢
      exact watch_of_stir e (by rw [found]; rfl)
  · intro place w v stands watch waits
    rw [stirred.watcher?] at stands
    obtain ⟨mounted, found, rfl⟩ := watching?_of_watcher? placed stands watch
    have quiet := e.hasNews_of_waiting_stir waits
    rw [hasNews, found, Option.all_some] at quiet
    rw [stirred.account]
    exact quiet
  · intro c waits
    exact sound.uncalled c (host.agenda.uncalled c (e.grows_stir.uncalled c waits))

private theorem reads (sound : d.Sound) {rest : Agenda Task} {v v' : PeerView}
    {notices : List PeerNotice}
    {calls : List Task} (next : d.agenda.next? = some (.watch w.opened, rest))
    (stands : d.watcher? place = some w) (watch : w.watch = some v)
    (read : v.ReadOn d.account notices v') (account : e.account = d.account)
    (step : e.step = d.step) (widgets : e.widgets = d.widgets)
    (tidy : d.Tidy → e.Tidy)
    (watchers : e.watcher? = Function.update d.watcher? place (some { w with watch := some v' }))
    (agenda : e.agenda = (if (v.pause? d.account).isSome
      then (rest.begin calls).tire (.watch w.opened)
      else (rest.begin calls).await (.watch w.opened))) : e.Sound := by
  have held {t : Task} (had : d.agenda.Holds t) : e.agenda.Holds t := by
    rw [agenda, Agenda.holds_pause]
    rcases (Agenda.holds_of_next? next).mp had with same | had
    · exact .inr same
    · exact .inl (Agenda.holds_begin.mpr (.inl had))
  have waits {t : Task} (waiting : t ∈ e.agenda.waiting) :
      t ∈ d.agenda.waiting ∨ (v.pause? d.account).isSome = false ∧ t = .watch w.opened := by
    rw [agenda] at waiting
    have kept := Agenda.mem_waiting_pause waiting
    rwa [Agenda.begin, Agenda.waiting_of_next? next] at kept
  refine ⟨⟨tidy sound.toTidy, fun p q x y hx hy same => ?_⟩, fun p x hx => ?_, fun b hb => ?_,
    fun p x hx some => ?_, fun p x u hx hu waiting => ?_, fun c waiting => ?_⟩
  · rcases watcher?_update_cases watchers hx with ⟨rfl, rfl⟩ | ⟨-, hx⟩
    · rcases watcher?_update_cases watchers hy with ⟨rfl, rfl⟩ | ⟨-, hy⟩
      · rfl
      · exact sound.once p q w y stands hy same
    · rcases watcher?_update_cases watchers hy with ⟨rfl, rfl⟩ | ⟨-, hy⟩
      · exact sound.once p q x w hx stands same
      · exact sound.once p q x y hx hy same
  · have fits : d.Fits x := by
      rcases watcher?_update_cases watchers hx with ⟨rfl, rfl⟩ | ⟨-, hx⟩
      · exact (sound.fits p w stands).read watch read
      · exact sound.fits p x hx
    exact fits.mono (Nat.le_of_eq step.symm) (Nat.le_of_eq (by rw [account]))
  · rw [widgets] at hb
    rw [step]
    exact sound.widgets b hb
  · rcases watcher?_update_cases watchers hx with ⟨rfl, rfl⟩ | ⟨-, hx⟩
    · exact held (sound.watched p w stands (by rw [watch]; rfl))
    · exact held (sound.watched p x hx some)
  · rw [account]
    rcases watcher?_update_cases watchers hx with ⟨rfl, rfl⟩ | ⟨other, hx⟩
    · cases hu
      -- a watch that waited had no news, so it did not have to stop on the way
      rcases waits waiting with before | ⟨unpaused, -⟩
      · exact read.finished (PeerView.pause?_of_no_news (sound.quiet p w v stands watch before))
      · exact read.finished (by simpa using unpaused)
    · rcases waits waiting with before | ⟨-, same⟩
      · exact sound.quiet p x u hx hu before
      · exact absurd (sound.once p place x w hx stands (Task.watch.inj same)) other
  · rcases waits waiting with before | ⟨-, same⟩
    · exact sound.uncalled c before
    · cases same

private theorem of_call (sound : d.Sound) {c : QueuedCall} {rest : Agenda Task}
    (next : d.agenda.next? = some (.call c, rest)) (account : e.account = d.account)
    (step : e.step = d.step) (widgets : e.widgets = d.widgets) (watchers : e.watcher? = d.watcher?)
    (tidy : d.Tidy → e.Tidy) (held : ∀ t, rest.Holds t → e.agenda.Holds t)
    (waits : e.agenda.waiting = rest.waiting) : e.Sound := by
  rw [Agenda.waiting_of_next? next] at waits
  refine sound.of_same account (Nat.le_of_eq step.symm) widgets watchers tidy
    (fun place w stands some had => ?_)
    (fun place w stands some waiting => by rwa [waits] at waiting)
    fun c waiting => sound.uncalled c (by rwa [waits] at waiting)
  rcases (Agenda.holds_of_next? next).mp had with same | had
  · cases same
  · exact held _ had

theorem stepped (sound : d.Sound) (m : Move) : Stepped d m (d.play m) :=
  stepped_play sound.toPlaced
    (fun place w v stands watch => (sound.fits place w stands).inside v watch) m

private theorem play (sound : d.Sound) (m : Move) : (d.play m).Sound := by
  have stepped := sound.stepped m
  generalize d.play m = e at stepped
  cases stepped with
  | host host => exact sound.host host
  | still alike grows waits =>
    exact sound.of_same alike.account (by rw [alike.step]; exact Nat.le_add_right _ _) alike.widgets
      alike.watcher? (fun tidy => alike.tidy (tidy.of_seats rfl rfl))
      (fun _ _ _ _ had => grows.held _ had)
      (fun _ _ _ _ waiting => waits _ waiting) fun c waiting => sound.uncalled c (waits _ waiting)
  | aside turn next noCall unwatched alike grows waits =>
    refine sound.of_same alike.account (Nat.le_of_eq alike.step.symm) alike.widgets alike.watcher?
      alike.tidy (fun place w stands some had => ?_) (fun place w stands some waiting => ?_) ?_
    · rcases (Agenda.holds_of_next? next).mp had with same | had
      · exact absurd same.symm (unwatched place w stands some)
      · exact grows.held _ had
    · rcases waits _ waiting with before | same
      · rwa [Agenda.waiting_of_next? next] at before
      · exact absurd same.symm (unwatched place w stands some)
    · intro c waiting
      rcases waits _ waiting with before | same
      · rw [Agenda.waiting_of_next? next] at before
        exact sound.uncalled c before
      · exact noCall c same.symm
  | reads turn next stands watch read calls account step widgets told tidy watchers agenda =>
    exact sound.reads next stands watch read account step widgets tidy watchers agenda
  | putOff turn next =>
    exact sound.of_call next rfl rfl rfl rfl (·.of_seats rfl rfl)
      (fun _ had => Agenda.holds_tire.mpr (.inl had)) rfl
  | tells turn next alive account step widgets watchers tidy agenda told =>
    rw [← agenda] at next
    exact sound.of_call next account step widgets watchers tidy (fun _ => id) rfl
  | loses turn next gone =>
    exact sound.of_call next rfl rfl rfl rfl (·.of_seats rfl rfl) (fun _ => id) rfl

private theorem empty : ({} : Desk).Sound where
  keyed := List.nodup_nil
  owned _ _ h := by cases h
  gone _ h := by cases h
  once _ _ _ _ h := by cases h
  fits _ _ h := by cases h
  widgets _ h := by cases h
  watched _ _ h := by cases h
  quiet _ _ _ h := by cases h
  uncalled _ h := by cases h

end Sound

theorem sound_run (moves : List Move) : (run moves).Sound := by
  induction moves using List.reverseRecOn with
  | nil => exact .empty
  | append_singleton moves m ih =>
    rw [run_append_singleton]
    exact ih.play m

theorem stepped_run (moves : List Move) (m : Move) :
    Stepped (run moves) m (run (moves ++ [m])) := by
  rw [run_append_singleton]
  exact (sound_run moves).stepped m

end Desk

end PeerPanel
