import PeerPanel.Proofs.Account.PeerReading
import PeerPanel.Proofs.Desk.Tasks

/-!
What can happen at a desk, one move at a time.

The host changes the account, stores entries, makes and drops widgets and panels and shows other
sections; in between, background tasks have their turns. A run is any sequence of these moves.
`Desk.stepped_play` says once what a move can do to the account, the panels, the agenda and the
windows, and the properties of runs follow from that.
-/

set_option autoImplicit false
set_option relaxedAutoImplicit false

namespace PeerPanel

namespace Panel

variable {a : Account} {c : SearchConfig} {now : Search.Moment} {e : Entry}

private theorem rebuild_watches (p : Panel) (a : Account) (c : SearchConfig) (now : Search.Moment)
    (e : Entry) :
    (p.rebuild a c now e).2.toPane = p.toPane ∧ (p.rebuild a c now e).2.lifetime = p.lifetime := by
  unfold rebuild
  split
  · exact ⟨rfl, rfl⟩
  · split
    · split <;> exact ⟨rfl, rfl⟩
    · exact ⟨rfl, rfl⟩

private theorem ofEntry_watches {p : Panel} (opens : ofEntry a c now e = .ok p) :
    p.toPane = (bare e).toPane ∧ p.lifetime.Owned (now.step + 1) ∧
      p.lifetime.source? now.step = (bare e).migrationWatch a := by
  have kept := rebuild_watches (bare e) a c now e
  unfold ofEntry at opens
  split at opens
  · next built rebuilt =>
    cases opens
    rw [rebuilt] at kept
    obtain ⟨pane, same⟩ : built.toPane = (bare e).toPane ∧ built.lifetime = {} := kept
    refine ⟨pane, ?_⟩
    unfold beginWatch
    rw [pane, same]
    cases (bare e).migrationWatch a with
    | none => exact ⟨.empty _, rfl⟩
    | some v =>
      exact ⟨(Lifetime.Owned.empty _).start _ _, by simp [Lifetime.start, Lifetime.source?]⟩
  · cases opens

private theorem switchTo_watches (p : Panel) (a : Account) (c : SearchConfig) (now : Search.Moment)
    (e : Entry) :
    ∃ shown, (p.switchTo a c now e).2.toPane = { p.toPane with shown } ∧
      (p.switchTo a c now e).2.lifetime = p.lifetime := by
  have kept := rebuild_watches { p with shown := e.shown } a c now e
  unfold switchTo
  split
  · next switched rebuilt =>
    rw [rebuilt] at kept
    exact ⟨e.shown, kept⟩
  · next refusal left rebuilt =>
    rw [rebuilt] at kept
    refine ⟨p.shown, ?_, kept.2⟩
    show { left.toPane with shown := p.shown } = _
    rw [kept.1]

section

variable {p : Panel} {begun step : Nat} {v v' : PeerView} {notices : List PeerNotice}

theorem watchTurn_of_source (owned : p.lifetime.Owned step)
    (runs : p.lifetime.source? begun = some v) (reads : v.readAll a = (notices, v')) :
    (p.watchTurn begun a).1 =
        (if (a.peer? v.peer).any Peer.isLinked then notices.length else 0) ∧
      (p.watchTurn begun a).2.lifetime.source? begun = some v' ∧
      (p.watchTurn begun a).2.toPane = p.toPane := by
  have taken : takeReady (PeerView.ask a) (v.readyBound a) v = (notices, some v') := by
    rw [PeerView.takeReady_ask]
    exact congrArg (fun r => (r.1, some r.2)) reads
  obtain ⟨count, left⟩ := owned.turn _ _ runs taken
  unfold watchTurn
  rw [runs]
  refine ⟨?_, left, rfl⟩
  simp only [count]
  cases a.peer? v.peer <;> rfl

private theorem owned_watchTurn (begun : Nat) (a : Account) (owned : p.lifetime.Owned step) :
    (p.watchTurn begun a).2.lifetime.Owned step := by
  unfold watchTurn
  split
  · exact owned.run _ _ begun
  · exact owned

private theorem running_watchTurn_eq_nil (begun : Nat) (a : Account)
    (silent : p.lifetime.running = []) :
    (p.watchTurn begun a).2.lifetime.running = [] := by
  unfold watchTurn
  rw [Lifetime.source?, silent]
  exact silent

end

end Panel

namespace Desk

open Account (Change)

def nextStep (d : Desk) : Desk := { d with step := d.step + 1 }

/-- The desk that an action leaves, also where it is denied. -/
def after {α : Type} (act : Act α) (d : Desk) : Desk :=
  match act d with
  | .ok _ left => left
  | .error _ left => left

section

variable {α β : Type} (d : Desk) (a : α) (f : α → Act β) (h : Handle) (refusal : PanelError)

@[simp] theorem after_pure : after (pure a) d = d := rfl

@[simp] theorem after_modify (g : Desk → Desk) : after (modify g) d = g d := rfl

@[simp] theorem after_get_bind (f : Desk → Act β) : after (get >>= f) d = after (f d) d := rfl

@[simp] theorem after_modify_bind (g : Desk → Desk) (f : PUnit → Act β) :
    after (modify g >>= f) d = after (f ⟨⟩) (g d) := rfl

@[simp] theorem after_orMissing_none_bind : after (orMissing h none >>= f) d = d := rfl

@[simp] theorem after_orMissing_some_bind : after (orMissing h (some a) >>= f) d = after (f a) d :=
  rfl

@[simp] theorem after_orRefused_error_bind : after (orRefused (.error refusal) >>= f) d = d := rfl

@[simp] theorem after_orRefused_ok_bind : after (orRefused (.ok a) >>= f) d = after (f a) d := rfl

@[simp] theorem after_map (g : α → β) (act : Act α) : after (g <$> act) d = after act d := by
  show after (EStateM.map g act) d = _
  unfold after EStateM.map
  cases act d <;> rfl

theorem after_inStep (act : Act α) :
    after (inStep act) d = (after act d.nextStep).stir := by
  unfold after inStep nextStep
  cases act { d with step := d.step + 1 } <;> rfl

end

section

variable (d : Desk) (place name : String)

theorem after_openPanel_of_ofEntry {e : Entry} {panel : Panel}
    (stored : d.entries.get? name = some e)
    (opens : Panel.ofEntry d.account d.config.search d.moment e = .ok panel)
    (widget : Option String) :
    ∃ m : Mounted,
      m.watcher =
        { pane := (Panel.bare e).toPane
          watch := (Panel.bare e).migrationWatch d.account
          widget := (widget.bind fun w => d.widgets.get? w).map (·.1)
          opened := d.step } ∧ m.Owns ∧
      after (openPanel place name widget) d =
        (d.putAt place (.panel m)).enroll.leavePanel place (d.seat place).occupant := by
  obtain ⟨pane, owned, watch⟩ := Panel.ofEntry_watches opens
  refine ⟨{ panel, widget := (widget.bind fun w => d.widgets.get? w).map (·.1)
            opened := d.step, built := d.step }, ?_, owned, ?_⟩
  · rw [Mounted.watcher, pane, ← watch]
    rfl
  · simp [openPanel, entry, now, stored, opens, changeSeat, putAt]

theorem after_openPanel (widget : Option String) :
    after (openPanel place name widget) d = d ∨
      ∃ e m, d.entries.get? name = some e ∧
        m.watcher =
          { pane := (Panel.bare e).toPane
            watch := (Panel.bare e).migrationWatch d.account
            widget := (widget.bind fun w => d.widgets.get? w).map (·.1)
            opened := d.step } ∧ m.Owns ∧
        after (openPanel place name widget) d =
          (d.putAt place (.panel m)).enroll.leavePanel place (d.seat place).occupant := by
  cases stored : d.entries.get? name with
  | none =>
    left
    simp [openPanel, entry, stored]
  | some e =>
    cases opens : Panel.ofEntry d.account d.config.search d.moment e with
    | error refusal =>
      left
      simp [openPanel, entry, now, stored, opens]
    | ok panel =>
      right
      obtain ⟨m, built⟩ := after_openPanel_of_ofEntry d place name stored opens widget
      exact ⟨e, m, rfl, built⟩

theorem after_dropPanel :
    after (dropPanel place) d = d ∨
      after (dropPanel place) d =
        (d.putAt place .vacant).leavePanel place (d.seat place).occupant := by
  by_cases vacant : (d.seat place).occupant = .vacant
  · left
    simp [dropPanel, vacant]
  · right
    simp [dropPanel, vacant, occupy, changeSeat, putAt]

theorem after_rebuildPanel
    (f : Panel → Account → SearchConfig → Search.Moment → Entry →
      Except PanelError Unit × Panel) :
    after (rebuildPanel place name f) d = d ∨
      ∃ e old result panel, d.entries.get? name = some e ∧ (d.seat place).mounted? = some old ∧
        f old.panel d.account d.config.search d.moment e = (result, panel) ∧
        (after (rebuildPanel place name f) d = d.putAt place (.panel { old with panel }) ∨
          after (rebuildPanel place name f) d =
            (((d.putAt place (.panel { old with panel })).putAt place
              (.panel { old with panel, built := d.step })).partField old).part old.built
                old.panel.search) := by
  cases stored : d.entries.get? name with
  | none =>
    left
    simp [rebuildPanel, entry, stored]
  | some e =>
    cases stands : (d.seats.get? place).bind (·.mounted?) with
    | none =>
      left
      simp [rebuildPanel, entry, stored, mounted, stands]
    | some old =>
      right
      have here : (d.seat place).mounted? = some old := by
        obtain ⟨s, found, mounted⟩ := Option.bind_eq_some_iff.mp stands
        rw [seat_of_get? found, mounted]
      rcases rebuilt : f old.panel d.account d.config.search d.moment e with ⟨refusal | ⟨⟩, panel⟩
      · refine ⟨e, old, _, panel, rfl, here, rebuilt, .inl ?_⟩
        simp [rebuildPanel, entry, stored, mounted, stands, now, rebuilt, changeSeat, putAt]
      · refine ⟨e, old, _, panel, rfl, here, rebuilt, .inr ?_⟩
        simp [rebuildPanel, entry, stored, mounted, stands, now, rebuilt, changeSeat, putAt]

end

/-- What may happen at a desk. -/
inductive Move
  | change (c : Change)
  | store (name : String) (e : Entry)
  | makeWidget (name : String) (accepts : Bool) (wrap : Wrap)
  | dropWidget (name : String)
  | openPanel (place entry : String) (widget : Option String)
  | switchTo (place entry : String)
  | dropPanel (place : String)
  /-- The host makes a step in which it lets time pass. -/
  | pass
  /-- A background task has its turn. -/
  | turn
  /-- A round of background work is over. -/
  | refresh
  | reach (time : Nat)
  /-- The step in which time has passed is over. -/
  | stir

def play (d : Desk) : Move → Desk
  | .change c => after (inStep (changeAccount fun a => ((), a.apply c))) d
  | .store name e => after (inStep (setEntry name e)) d
  | .makeWidget name accepts wrap => after (inStep (makeWidget name accepts wrap)) d
  | .dropWidget name => after (inStep (dropWidget name)) d
  | .openPanel place entry widget => after (inStep (openPanel place entry widget)) d
  | .switchTo place entry => after (inStep (rebuildPanel place entry Panel.switchTo)) d
  | .dropPanel place => after (inStep (dropPanel place)) d
  | .pass => d.nextStep
  | .turn =>
    match d.agenda.next? with
    | some (t, rest) => { d with agenda := rest }.perform t
    | none => d
  | .refresh => { d with agenda := d.agenda.refresh }
  | .reach time => d.reach time
  | .stir => d.stir

/-- The desk after a sequence of moves, from an empty one. -/
def run (moves : List Move) : Desk := moves.foldl play {}

theorem run_append_singleton (moves : List Move) (m : Move) :
    run (moves ++ [m]) = (run moves).play m := by
  simp only [run, List.foldl_append, List.foldl_cons, List.foldl_nil]

/-- The watcher of a panel that is opened in the next step of the host. -/
def openedWatcher (d : Desk) (e : Entry) (widget : Option String) : Watcher where
  pane := (Panel.bare e).toPane
  watch := (Panel.bare e).migrationWatch d.account
  widget := (widget.bind fun w => d.widgets.get? w).map (·.1)
  opened := d.step + 1

/-- What the host may make of the watcher at a place. -/
inductive Next (d : Desk) (m : Move) (place : String) : Option Watcher → Prop
  | gone : Next d m place none
  | shows {w : Watcher} (shown : Section) :
      d.watcher? place = some w → Next d m place (some { w with pane := { w.pane with shown } })
  | opened {name : String} {widget : Option String} {e : Entry} :
      m = .openPanel place name widget → d.entries.get? name = some e →
      Next d m place (some (d.openedWatcher e widget))

/-- What the host may do in a step, before the tasks hear of it. -/
structure Host (d : Desk) (m : Move) (e : Desk) : Prop where
  step : e.step = d.step + 1
  account : e.account = d.account ∨ ∃ c, m = .change c ∧ e.account = d.account.apply c
  widgets : ∀ b ∈ e.widgets.bindings, b ∈ d.widgets.bindings ∨ b.2.1 = d.step + 1
  told : e.told = d.told
  tidy : d.Tidy → e.Tidy
  agenda : Grows d.agenda e.agenda
  places : e.watcher? = d.watcher? ∨
    ∃ place next, e.watcher? = Function.update d.watcher? place next ∧ Next d m place next

/-- The call by which the window is asked to open a section of a peer anew. -/
def reopeningOf (peer : PeerId) (shown : Section) : NavCall :=
  .display (.fresh peer shown) { way := .backward, motion := .instant, activation := .background }

/-- What a move may do. -/
inductive Stepped (d : Desk) (m : Move) : Desk → Prop
  | host {e : Desk} : Host d m e → Stepped d m e.stir
  | still {k : Nat} {e : Desk} : { d with step := d.step + k }.Alike e →
      Grows d.agenda e.agenda → (∀ t ∈ e.agenda.waiting, t ∈ d.agenda.waiting) → Stepped d m e
  /-- A task other than a call has its turn, and no panel has a watch that it is about. -/
  | aside {e : Desk} {t : Task} {rest : Agenda Task} :
      m = .turn → d.agenda.next? = some (t, rest) → (∀ c, t ≠ .call c) →
      (∀ place w, d.watcher? place = some w → w.watch.isSome = true → t ≠ .watch w.opened) →
      d.Alike e → Grows rest e.agenda → (∀ s ∈ e.agenda.waiting, s ∈ rest.waiting ∨ s = t) →
      Stepped d m e
  /-- The watch of a panel reads, and queues a call for every notice if the peer is linked. -/
  | reads {e : Desk} {rest : Agenda Task} {place : String} {w : Watcher} {v v' : PeerView}
      {notices : List PeerNotice} {calls : List Task} :
      m = .turn → d.agenda.next? = some (.watch w.opened, rest) → d.watcher? place = some w →
      w.watch = some v → v.ReadOn d.account notices v' →
      calls = List.replicate
        (if (d.account.peer? v.peer).any Peer.isLinked then notices.length else 0)
        (.call { place, widget := w.widget, call := reopeningOf v.peer w.pane.shown }) →
      e.account = d.account → e.step = d.step → e.widgets = d.widgets → e.told = d.told →
      (d.Tidy → e.Tidy) →
      e.watcher? = Function.update d.watcher? place (some { w with watch := some v' }) →
      e.agenda = (if (v.pause? d.account).isSome then (rest.begin calls).tire (.watch w.opened)
        else (rest.begin calls).await (.watch w.opened)) →
      Stepped d m e
  | putOff {c : QueuedCall} {rest : Agenda Task} :
      m = .turn → d.agenda.next? = some (.call c, rest) →
      Stepped d m { d with agenda := rest.tire (.call { c with isPutOff := true }) }
  | tells {e : Desk} {c : QueuedCall} {rest : Agenda Task} :
      m = .turn → d.agenda.next? = some (.call c, rest) → (c.widget.bind d.widgetMade?).isSome →
      e.account = d.account → e.step = d.step → e.widgets = d.widgets →
      e.watcher? = d.watcher? → (d.Tidy → e.Tidy) → e.agenda = rest →
      e.told = Function.update d.told c.place (d.told c.place ++ [c.call]) → Stepped d m e
  | loses {c : QueuedCall} {rest : Agenda Task} :
      m = .turn → d.agenda.next? = some (.call c, rest) →
      (c.widget.bind d.widgetMade?).isSome = false → Stepped d m { d with agenda := rest }

theorem Tidy.nextStep {d : Desk} (tidy : d.Tidy) : d.nextStep.Tidy := tidy.of_seats rfl rfl

theorem Tidy.owns_occupant {d : Desk} (tidy : d.Tidy) (place : String) (m : Mounted)
    (stands : (d.seat place).occupant = .panel m) : m.Owns :=
  tidy.owned place m (by rw [Seat.mounted?, stands])

namespace Host

variable {d e : Desk} {m : Move} {place : String} {o : Occupant}

private theorem of_alike (alike : d.nextStep.Alike e) (same : e.agenda = d.agenda) :
    Host d m e where
  step := alike.step
  account := .inl alike.account
  widgets b hb := .inl (by rwa [alike.widgets] at hb)
  told := alike.told
  tidy tidy := alike.tidy (tidy.of_seats rfl rfl)
  agenda := by
    rw [same]
    exact .refl _
  places := .inl alike.watcher?

private theorem of_putAt (alike : (d.nextStep.putAt place o).Alike e)
    (owned : ∀ m, o = .panel m → m.Owns) (grows : Grows d.agenda e.agenda)
    (next : Next d m place (Occupant.watcher? o)) : Host d m e where
  step := alike.step
  account := .inl alike.account
  widgets b hb := .inl (by rwa [alike.widgets] at hb)
  told := alike.told.trans (told_putAt _ place o)
  tidy tidy := alike.tidy (tidy.nextStep.putAt place owned)
  agenda := grows
  places := .inr ⟨place, _, alike.watcher?.trans (watcher?_putAt _ place o), next⟩

private theorem of_widgets
    (widgets : ∀ b ∈ e.widgets.bindings, b ∈ d.widgets.bindings ∨ b.2.1 = d.step + 1)
    (alike : { d.nextStep with widgets := e.widgets }.Alike e)
    (same : e.agenda = d.agenda) : Host d m e where
  step := alike.step
  account := .inl alike.account
  widgets := widgets
  told := alike.told
  tidy tidy := alike.tidy (tidy.of_seats rfl rfl)
  agenda := by
    rw [same]
    exact .refl _
  places := .inl alike.watcher?

end Host

section

variable (d : Desk)

private theorem host_makeWidget (name : String) (accepts : Bool) (wrap : Wrap) :
    Host d (.makeWidget name accepts wrap)
      (after (makeWidget name accepts wrap) d.nextStep) := by
  rw [makeWidget, after_modify]
  split
  · refine .of_widgets (fun b hb => ?_) (.of_seats rfl rfl rfl rfl rfl) rfl
    rcases List.mem_cons.mp hb with rfl | old
    · exact .inr rfl
    · exact .inl (List.mem_filter.mp old).1
  · refine .of_widgets (fun b hb => ?_) (.of_seats rfl rfl rfl rfl rfl) rfl
    rcases List.mem_cons.mp hb with rfl | old
    · exact .inr rfl
    · exact .inl (List.mem_filter.mp old).1

private theorem host_dropWidget (name : String) :
    Host d (.dropWidget name) (after (dropWidget name) d.nextStep) := by
  rw [dropWidget, after_get_bind]
  split
  · refine .of_widgets (fun b hb => ?_) (.of_seats rfl rfl rfl rfl rfl) rfl
    exact .inl (List.mem_filter.mp hb).1
  · exact .of_alike (.refl _) rfl

theorem host_openPanel (tidy : d.Tidy) (place name : String) (widget : Option String) :
    Host d (.openPanel place name widget)
      (after (openPanel place name widget) d.nextStep) := by
  rcases after_openPanel d.nextStep place name widget with
    same | ⟨e, m, stored, watcher, owns, left⟩
  · rw [same]
    exact .of_alike (.refl _) rfl
  · rw [left]
    refine .of_putAt ((Alike.agenda _ _).trans (alike_leavePanel _ place
      (tidy.nextStep.owns_occupant place))) (fun n same => by cases same; exact owns) ?_ ?_
    · rw [agenda_leavePanel]
      exact (d.nextStep.putAt place (.panel m)).grows_enroll
    · rw [Occupant.watcher?, watcher]
      exact .opened rfl stored

private theorem host_switchTo (tidy : d.Tidy) (place name : String) :
    Host d (.switchTo place name)
      (after (rebuildPanel place name Panel.switchTo) d.nextStep) := by
  rcases after_rebuildPanel d.nextStep place name Panel.switchTo with
    same | ⟨e, old, result, panel, -, stands, switched, left⟩
  · rw [same]
    exact .of_alike (.refl _) rfl
  · have here : d.watcher? place = some old.watcher := by
      show Option.map _ _ = _
      exact congrArg (Option.map _) stands
    obtain ⟨shown, pane, lifetime⟩ := old.panel.switchTo_watches d.account d.config.search
      { time := d.time, step := d.step + 1 } e
    have panel' : panel = (old.panel.switchTo d.account d.config.search
      { time := d.time, step := d.step + 1 } e).2 := (congrArg Prod.snd switched).symm
    have kept : panel.lifetime = old.panel.lifetime := by rw [panel', lifetime]
    have next (built : Nat) : Next d (.switchTo place name) place
        (Occupant.watcher? (.panel { old with panel, built })) := by
      have same : ({ old with panel, built } : Mounted).watcher =
          { old.watcher with pane := { old.watcher.pane with shown } } := by
        simp only [Mounted.watcher, Mounted.watch, panel', lifetime, pane]
      rw [Occupant.watcher?, same]
      exact .shows shown here
    have owns (built : Nat) (m : Mounted)
        (same : Occupant.panel { old with panel, built } = .panel m) : m.Owns := by
      cases same
      rw [Mounted.Owns, kept]
      exact tidy.nextStep.owned place old stands
    rcases left with left | left
    · rw [left]
      exact .of_putAt (.refl _) (owns old.built) (.refl _) (next old.built)
    · rw [left, putAt_putAt]
      have sheds := (Sheds.partField (d.nextStep.putAt place
        (.panel { old with panel, built := d.nextStep.step })) old).trans
          (.part _ old.built old.panel.search)
      refine .of_putAt sheds.alike (owns _) ?_ (next _)
      rw [sheds.agenda_eq]
      exact .refl _

private theorem host_dropPanel (tidy : d.Tidy) (place : String) :
    Host d (.dropPanel place) (after (dropPanel place) d.nextStep) := by
  rcases after_dropPanel d.nextStep place with same | left
  · rw [same]
    exact .of_alike (.refl _) rfl
  · rw [left]
    refine .of_putAt (alike_leavePanel _ place (tidy.nextStep.owns_occupant place)) (by simp) ?_
      .gone
    rw [agenda_leavePanel]
    exact .refl _

end

section

variable {d : Desk} {rest : Agenda Task}

private theorem alike_pauseTask (d : Desk) (isTired : Bool) (t : Task) :
    d.Alike (d.pauseTask isTired t) :=
  .agenda d _

private theorem mem_waiting_pauseTask {isTired : Bool} {s t : Task}
    (waits : s ∈ (d.pauseTask isTired t).agenda.waiting) : s ∈ d.agenda.waiting ∨ s = t :=
  (Agenda.mem_waiting_pause waits).imp_right And.right

private theorem stepped_alarm {setAt : Nat} (next : d.agenda.next? = some (.alarm setAt, rest)) :
    Stepped d .turn ({ d with agenda := rest }.perform (.alarm setAt)) := by
  have aside {e : Desk} (alike : { d with agenda := rest }.Alike e) (grows : Grows rest e.agenda)
      (waits : ∀ s ∈ e.agenda.waiting, s ∈ rest.waiting ∨ s = .alarm setAt) : Stepped d .turn e :=
    .aside rfl next (by simp) (by simp) ((Alike.agenda d rest).trans alike) grows waits
  rw [perform]
  split
  · split
    · refine aside ((Alike.mapSearch _ _ _).trans (.agenda _ _)) (.wake _ _ _) fun s waits => ?_
      exact .inl (List.mem_filter.mp waits).1
    · refine aside (alike_pauseTask _ _ _)
        (.pause (t := .alarm setAt) (by simp) rest false) fun s => ?_
      exact mem_waiting_pauseTask
  · exact aside (.refl _) (.refl _) fun s => .inl

theorem runFollower_eq (d : Desk) (begun : Nat) (source : Stream) :
    ∃ lives, d.runFollower begun source = { d with lives } ∨
      ∃ isTired, d.runFollower begun source =
        { d with lives }.pauseTask isTired (.follower begun) := by
  unfold runFollower
  simp only
  split
  · exact ⟨_, .inl rfl⟩
  · exact ⟨_, .inr ⟨_, rfl⟩⟩

private theorem stepped_follower {begun : Nat}
    (next : d.agenda.next? = some (.follower begun, rest)) :
    Stepped d .turn ({ d with agenda := rest }.perform (.follower begun)) := by
  have aside {e : Desk} (alike : { d with agenda := rest }.Alike e) (grows : Grows rest e.agenda)
      (waits : ∀ s ∈ e.agenda.waiting, s ∈ rest.waiting ∨ s = .follower begun) :
      Stepped d .turn e :=
    .aside rfl next (by simp) (by simp) ((Alike.agenda d rest).trans alike) grows waits
  rw [perform]
  split
  · next source _ =>
    obtain ⟨lives, same | ⟨isTired, same⟩⟩ :=
      runFollower_eq { d with agenda := rest } begun source
    · rw [same]
      exact aside (.of_seats rfl rfl rfl rfl rfl) (.refl _) fun s => .inl
    · rw [same]
      refine aside (.of_seats rfl rfl rfl rfl rfl) (.pause (t := .follower begun) (by simp) _ _)
        fun s => ?_
      exact mem_waiting_pauseTask
  · exact aside (.refl _) (.refl _) fun s => .inl

theorem peer?_of_pause (v : PeerView) (a : Account) (id : PeerId) :
    ((v.pause? a).getD a).peer? id = a.peer? id := by
  cases paused : v.pause? a with
  | none => rfl
  | some b =>
    obtain ⟨-, -, -, peers, -⟩ := PeerView.pause?_eq_some paused
    rw [Option.getD_some, Account.peer?, peers, Account.peer?]

theorem runWatch_eq (place : String) {m : Mounted} {v v' : PeerView} {notices : List PeerNotice}
    (owns : m.Owns) (watch : m.watch = some v)
    (reads : v.readAll ((v.pause? d.account).getD d.account) = (notices, v')) :
    ∃ panel : Panel, ({ m with panel } : Mounted).watcher = { m.watcher with watch := some v' } ∧
      ∃ f : Panel → Panel, f m.panel = panel ∧
        (∀ p step, p.lifetime.Owned step → (f p).lifetime.Owned step) ∧
        (∀ p : Panel, p.lifetime.running = [] → (f p).lifetime.running = []) ∧
        d.runWatch place m v = ({ d.mapOpened m.opened f with
          agenda := d.agenda.begin (List.replicate
            (if (d.account.peer? v.peer).any Peer.isLinked then notices.length else 0)
            (.call { place, widget := m.widget, call := reopeningOf v.peer m.panel.shown })) }
          ).pauseTask (v.pause? d.account).isSome (.watch m.opened) := by
  obtain ⟨fired, source, pane⟩ := Panel.watchTurn_of_source owns watch reads
  rw [peer?_of_pause] at fired
  refine ⟨_, ?_, fun p => (p.watchTurn m.opened ((v.pause? d.account).getD d.account)).2, rfl,
    fun p step => Panel.owned_watchTurn _ _, fun p => Panel.running_watchTurn_eq_nil _ _, ?_⟩
  · simp only [Mounted.watcher, Mounted.watch, source, pane]
  · simp only [runWatch, fired]
    rfl

private theorem stepped_watch (placed : d.Placed) {opened : Nat}
    (inside : ∀ place w v, d.watcher? place = some w → w.watch = some v →
      v.place ≤ d.account.peerNotices.place)
    (next : d.agenda.next? = some (.watch opened, rest)) :
    Stepped d .turn ({ d with agenda := rest }.perform (.watch opened)) := by
  rw [perform]
  have same : ({ d with agenda := rest } : Desk).watching? opened = d.watching? opened := rfl
  rw [same]
  cases found : d.watching? opened with
  | none =>
    refine .aside rfl next (by simp) (fun place w stands some here => ?_) (.agenda d rest) (.refl _)
      fun s => .inl
    obtain ⟨v, watch⟩ := Option.isSome_iff_exists.mp some
    obtain ⟨m, there, -⟩ := watching?_of_watcher? placed stands watch
    cases here
    rw [found] at there
    cases there
  | some b =>
    obtain ⟨place, m, v⟩ := b
    obtain ⟨mounted, rfl, watch⟩ := placed.mounted?_of_watching? found
    obtain ⟨stands, -, -⟩ := watcher?_of_watching? placed found
    rcases reads : v.readAll ((v.pause? d.account).getD d.account) with ⟨notices, v'⟩
    have read := PeerView.readOn (inside place m.watcher v stands watch) reads
    obtain ⟨panel, watcher, f, rfl, owned, silent, runs⟩ :=
      runWatch_eq (d := { d with agenda := rest }) place (placed.owned place m mounted) watch reads
    show Stepped d .turn (runWatch { d with agenda := rest } place m v)
    rw [runs]
    have update := placed.watcher?_mapOpened mounted f
    rw [watcher] at update
    exact .reads (w := m.watcher) (v := v) rfl next stands watch read rfl rfl rfl rfl
      (told_mapOpened d m.opened f)
      (fun tidy => (tidy.mapOpened owned silent).of_seats rfl rfl) update rfl

private theorem Tidy.tell (tidy : d.Tidy) (place : String) (call : NavCall) :
    Tidy { d with
      agenda := rest
      seats := d.seats.insert place
        { d.seat place with told := (d.seat place).told ++ [call] } } where
  keyed := tidy.keyed.insert place _
  owned p m stands := by
    have owned := tidy.owned
    simp only [seat, Table.get?_insert] at stands owned
    split at stands
    · exact owned place m stands
    · exact owned p m stands
  gone := tidy.gone

private theorem stepped_call {c : QueuedCall} (next : d.agenda.next? = some (.call c, rest)) :
    Stepped d .turn ({ d with agenda := rest }.perform (.call c)) := by
  rw [perform, runCall]
  split
  · exact .putOff rfl next
  · split
    · next alive =>
      refine .tells rfl next alive rfl rfl rfl ?_ (fun tidy => tidy.tell c.place c.call) rfl ?_
      · funext p
        unfold watcher?
        rw [seat_insert]
        split
        · next same => rw [same]; rfl
        · rfl
      · funext p
        unfold told
        rw [seat_insert]
        by_cases same : p = c.place
        · rw [if_pos same, same, Function.update_self]
          rfl
        · rw [if_neg same, Function.update_of_ne same]
          rfl
    · next gone => exact .loses rfl next (Bool.eq_false_iff.mpr gone)

theorem stepped_play {d : Desk} (placed : d.Placed)
    (inside : ∀ place w v, d.watcher? place = some w → w.watch = some v →
      v.place ≤ d.account.peerNotices.place)
    (m : Move) : Stepped d m (d.play m) := by
  cases m with
  | change c =>
    rw [play, after_inStep]
    exact .host
      { step := rfl
        account := .inr ⟨c, rfl, rfl⟩
        widgets := fun _ => .inl
        told := rfl
        tidy := fun tidy => tidy.of_seats rfl rfl
        agenda := .refl _
        places := .inl rfl }
  | store name e =>
    rw [play, after_inStep]
    exact .host (.of_alike (.of_seats rfl rfl rfl rfl rfl) rfl)
  | makeWidget name accepts wrap =>
    rw [play, after_inStep]
    exact .host (d.host_makeWidget name accepts wrap)
  | dropWidget name =>
    rw [play, after_inStep]
    exact .host (d.host_dropWidget name)
  | openPanel place entry widget =>
    rw [play, after_inStep]
    exact .host (d.host_openPanel placed.toTidy place entry widget)
  | switchTo place entry =>
    rw [play, after_inStep]
    exact .host (d.host_switchTo placed.toTidy place entry)
  | dropPanel place =>
    rw [play, after_inStep]
    exact .host (d.host_dropPanel placed.toTidy place)
  | turn =>
    rw [play]
    split
    · next t rest next =>
      cases t with
      | alarm setAt => exact stepped_alarm next
      | follower begun => exact stepped_follower next
      | watch opened => exact stepped_watch placed inside next
      | call c => exact stepped_call next
    · exact .still (k := 0) (.refl d) (.refl _) fun _ => id
  | pass => exact .still (k := 1) (.refl _) (.refl _) fun _ => id
  | refresh => exact .still (k := 0) (.agenda d _) (.refresh _) fun _ => id
  | reach time =>
    refine .still (k := 0) (.of_seats rfl rfl rfl rfl rfl) (.wake _ _ _) fun s waits => ?_
    exact (List.mem_filter.mp waits).1
  | stir => exact .still (k := 0) d.alike_stir d.grows_stir fun s => d.mem_waiting_of_stir

end

end Desk

end PeerPanel
