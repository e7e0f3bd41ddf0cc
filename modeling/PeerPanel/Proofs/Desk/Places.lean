import Mathlib.Logic.Function.Basic
import PeerPanel.Desk.Clock
import PeerPanel.Proofs.Lifetime

/-!
The places of a desk, and what a watch for migrations depends on.

What a panel has subscribed to is held by it, so nothing of a panel that has gone still runs
(`Desk.Tidy`). A watch is found by the step in which its panel was opened, and no two panels were
opened in one step. So the search for a watch among all panels (`Desk.watching?`) and a look at a
place (`Desk.watcher?`) come to the same (`watching?_of_watcher?`, `watcher?_of_watching?`). Of a
panel only that is looked at what its watch depends on, `Watcher`. Much of what a desk does leaves
it alone: `Desk.Alike` says so.
-/

set_option autoImplicit false
set_option relaxedAutoImplicit false

namespace PeerPanel

namespace Table

variable {κ ν : Type} {t : Table κ ν} {k : κ} {v : ν}

/-- Every key is bound once. -/
def Keyed (t : Table κ ν) : Prop := (t.bindings.map (·.1)).Nodup

private theorem Keyed.mapValues (h : t.Keyed) (f : ν → ν) : (t.mapValues f).Keyed := by
  unfold Keyed Table.mapValues
  rw [List.map_map]
  exact h

variable [DecidableEq κ]

private theorem Keyed.erase (h : t.Keyed) (k : κ) : (t.erase k).Keyed :=
  List.Nodup.sublist (List.filter_sublist.map _) h

theorem Keyed.insert (h : t.Keyed) (k : κ) (v : ν) : (t.insert k v).Keyed := by
  have absent : k ∉ (t.erase k).bindings.map (·.1) := by
    simp [Table.erase]
  exact List.nodup_cons.mpr ⟨absent, h.erase k⟩

private theorem Keyed.get?_of_mem (h : t.Keyed) (bound : (k, v) ∈ t.bindings) :
    t.get? k = some v := by
  obtain ⟨front, back, split⟩ := List.append_of_mem bound
  refine List.lookup_eq_some_iff.mpr ⟨front, back, split, fun b hb => ?_⟩
  rw [Keyed, split, List.map_append, List.nodup_append] at h
  have other := h.2.2 b.1 (List.mem_map_of_mem hb) k (by simp)
  simpa using Ne.symm other

theorem mem_bindings_of_get? (h : t.get? k = some v) : (k, v) ∈ t.bindings := by
  obtain ⟨front, back, split, -⟩ := List.lookup_eq_some_iff.mp h
  simp [split]

private theorem get?_mapValues (t : Table κ ν) (f : ν → ν) (k : κ) :
    (t.mapValues f).get? k = (t.get? k).map f := by
  unfold get? mapValues
  induction t.bindings with
  | nil => rfl
  | cons b rest ih =>
    rw [List.map_cons, List.lookup_cons, List.lookup_cons, ih]
    cases k == b.1 <;> rfl

private theorem insert_insert (t : Table κ ν) (k : κ) (v w : ν) :
    (t.insert k v).insert k w = t.insert k w := by
  simp [Table.insert, Table.erase, List.filter_filter]

end Table

/-- What the watch of a panel depends on. -/
structure Watcher where
  pane : Pane
  watch : Option PeerView
  widget : Option Nat
  opened : Nat

def Mounted.watcher (m : Mounted) : Watcher :=
  { pane := m.panel.toPane, watch := m.watch, widget := m.widget, opened := m.opened }

def Occupant.watcher? : Occupant → Option Watcher
  | .panel m => some m.watcher
  | _ => none

/-- A panel holds what it has subscribed to, and nothing was begun after it was opened. -/
def Mounted.Owns (m : Mounted) : Prop := m.panel.lifetime.Owned (m.opened + 1)

namespace Seat

section

variable (s : Seat) (built : Nat) (f : Search.Debounce → Search.Debounce)

private theorem told_mapSearch : (s.mapSearch built f).told = s.told := by
  unfold mapSearch
  split
  · split <;> rfl
  · rfl

private theorem watcher_mapSearch :
    (s.mapSearch built f).mounted?.map (·.watcher) = s.mounted?.map (·.watcher) := by
  unfold mapSearch mounted?
  cases occupant : s.occupant with
  | panel m =>
    by_cases same : m.built = built
    · simp [same, Mounted.watcher, Mounted.watch]
    · simp [same, occupant]
  | _ => simp [occupant]

private theorem owns_of_mapSearch (owned : ∀ m, s.mounted? = some m → m.Owns) :
    ∀ m, (s.mapSearch built f).mounted? = some m → m.Owns := by
  unfold mapSearch mounted? at *
  cases occupant : s.occupant with
  | panel m =>
    have owns : m.Owns := owned m (by rw [occupant])
    by_cases same : m.built = built
    · simp only [same, if_true]
      rintro n ⟨⟩
      exact owns
    · simpa [same, occupant] using owns
  | _ => simp [occupant]

end

section

variable (s : Seat) (opened : Nat) (f : Panel → Panel)

private theorem told_mapOpened : (s.mapOpened opened f).told = s.told := by
  unfold mapOpened
  split <;> rfl

theorem mounted?_mapOpened :
    (s.mapOpened opened f).mounted? = s.mounted?.map (·.mapOpened opened f) := by
  unfold mapOpened mounted?
  cases occupant : s.occupant <;> simp [occupant]

end

end Seat

namespace Desk

def watcher? (d : Desk) (place : String) : Option Watcher :=
  (d.seat place).mounted?.map (·.watcher)

def told (d : Desk) (place : String) : List NavCall := (d.seat place).told

/-- Every place has one name, the panels there own their subscriptions, and nothing runs that was
begun by a panel which has gone. -/
structure Tidy (d : Desk) : Prop where
  keyed : d.seats.Keyed
  owned : ∀ place m, (d.seat place).mounted? = some m → m.Owns
  gone : ∀ b ∈ d.gone, b.2.panel.lifetime.running = []

/-- No two panels were opened in one step. -/
structure Placed (d : Desk) : Prop extends Tidy d where
  once : ∀ p q v w, d.watcher? p = some v → d.watcher? q = some w → v.opened = w.opened → p = q

theorem watcher?_update_cases {d e : Desk} {place p : String} {w x : Watcher}
    (update : e.watcher? = Function.update d.watcher? place (some w))
    (now : e.watcher? p = some x) :
    p = place ∧ x = w ∨ p ≠ place ∧ d.watcher? p = some x := by
  rw [update] at now
  by_cases here : p = place
  · subst here
    rw [Function.update_self] at now
    exact .inl ⟨rfl, (Option.some.inj now).symm⟩
  · rw [Function.update_of_ne here] at now
    exact .inr ⟨here, now⟩

variable {d : Desk} {place : String} {m : Mounted} {opened : Nat} {v : PeerView}

theorem seat_of_get? {s : Seat} (h : d.seats.get? place = some s) : d.seat place = s := by
  rw [seat, h, Option.getD_some]

private theorem get?_of_mounted? (h : (d.seat place).mounted? = some m) :
    d.seats.get? place = some (d.seat place) := by
  unfold seat at h ⊢
  cases found : d.seats.get? place with
  | none => rw [found] at h; cases h
  | some s => rfl

theorem Tidy.of_seats {e : Desk} (tidy : d.Tidy) (seats : e.seats = d.seats)
    (gone : e.gone = d.gone) : e.Tidy where
  keyed := by
    rw [seats]
    exact tidy.keyed
  owned place m := by
    rw [seat, seats]
    exact tidy.owned place m
  gone := by
    rw [gone]
    exact tidy.gone

theorem mem_panels_of_watching? (h : d.watching? opened = some (place, m, v)) :
    (place, m) ∈ d.panels ∧ m.opened = opened ∧ m.watch = some v := by
  obtain ⟨b, there, found⟩ := List.exists_of_findSome?_eq_some h
  split at found
  · next same =>
    obtain ⟨v', watch, eq⟩ := Option.map_eq_some_iff.mp found
    cases eq
    exact ⟨there, same, watch⟩
  · cases found

/-- Nothing is watched for a panel that has gone. -/
theorem Tidy.mounted?_of_watching? (tidy : d.Tidy) (h : d.watching? opened = some (place, m, v)) :
    (d.seat place).mounted? = some m ∧ m.opened = opened ∧ m.watch = some v := by
  obtain ⟨there, same, watch⟩ := mem_panels_of_watching? h
  refine ⟨?_, same, watch⟩
  rcases List.mem_append.mp there with stands | gone
  · obtain ⟨c, bound, mounted⟩ := List.mem_filterMap.mp stands
    obtain ⟨m', mounted, eq⟩ := Option.map_eq_some_iff.mp mounted
    cases eq
    rwa [seat_of_get? (tidy.keyed.get?_of_mem bound)]
  · have silent := tidy.gone _ gone
    rw [Mounted.watch, Lifetime.source?, silent] at watch
    cases watch

private theorem Placed.watching?_of_mounted? (placed : d.Placed)
    (h : (d.seat place).mounted? = some m)
    (watch : m.watch = some v) : d.watching? m.opened = some (place, m, v) := by
  have there : (place, m) ∈ d.panels := by
    refine List.mem_append_left _ (List.mem_filterMap.mpr ⟨(place, d.seat place), ?_, ?_⟩)
    · exact Table.mem_bindings_of_get? (get?_of_mounted? h)
    · rw [h, Option.map_some]
  cases found : d.watching? m.opened with
  | none => simpa [watch] using List.findSome?_eq_none_iff.mp found _ there
  | some b =>
    obtain ⟨q, m', v'⟩ := b
    obtain ⟨stands, same, watch'⟩ := placed.mounted?_of_watching? found
    have here : d.watcher? place = some m.watcher := by rw [watcher?, h, Option.map_some]
    have there : d.watcher? q = some m'.watcher := by rw [watcher?, stands, Option.map_some]
    obtain rfl := placed.once place q _ _ here there same.symm
    rw [h] at stands
    cases stands
    rw [watch] at watch'
    cases watch'
    rfl

/-- A place at which a watch runs is the one at which it is found. -/
theorem watching?_of_watcher? (placed : d.Placed) {w : Watcher} (h : d.watcher? place = some w)
    (watch : w.watch = some v) :
    ∃ m, d.watching? w.opened = some (place, m, v) ∧ m.watcher = w := by
  obtain ⟨m, stands, rfl⟩ := Option.map_eq_some_iff.mp h
  exact ⟨m, placed.watching?_of_mounted? stands watch, rfl⟩

theorem watcher?_of_watching? (placed : d.Placed) (h : d.watching? opened = some (place, m, v)) :
    d.watcher? place = some m.watcher ∧ m.opened = opened ∧ m.watch = some v := by
  obtain ⟨stands, same, watch⟩ := placed.mounted?_of_watching? h
  exact ⟨by rw [watcher?, stands, Option.map_some], same, watch⟩

section

variable (d : Desk) (opened : Nat) (f : Panel → Panel)

private theorem seat_mapOpened (place : String) :
    (d.mapOpened opened f).seat place = (d.seat place).mapOpened opened f := by
  unfold seat mapOpened
  rw [Table.get?_mapValues]
  cases d.seats.get? place <;> rfl

theorem told_mapOpened : (d.mapOpened opened f).told = d.told := by
  funext place
  rw [told, seat_mapOpened, Seat.told_mapOpened, told]

end

theorem Placed.watcher?_mapOpened (placed : d.Placed) (stands : (d.seat place).mounted? = some m)
    (f : Panel → Panel) :
    (d.mapOpened m.opened f).watcher? =
      Function.update d.watcher? place
        (some ({ m with panel := f m.panel } : Mounted).watcher) := by
  funext p
  have here : d.watcher? place = some m.watcher := by rw [watcher?, stands, Option.map_some]
  unfold watcher?
  rw [seat_mapOpened, Seat.mounted?_mapOpened]
  by_cases same : p = place
  · subst same
    rw [Function.update_self, stands, Option.map_some, Option.map_some, Mounted.mapOpened,
      if_pos rfl]
  · rw [Function.update_of_ne same]
    cases other : (d.seat p).mounted? with
    | none => rfl
    | some n =>
      have there : d.watcher? p = some n.watcher := by rw [watcher?, other, Option.map_some]
      have differs : n.opened ≠ m.opened := fun eq => same (placed.once p place _ _ there here eq)
      rw [Option.map_some, Mounted.mapOpened, if_neg differs]

theorem Tidy.mapOpened (tidy : d.Tidy) {f : Panel → Panel}
    (owned : ∀ p step, p.lifetime.Owned step → (f p).lifetime.Owned step)
    (silent : ∀ p : Panel, p.lifetime.running = [] → (f p).lifetime.running = []) :
    (d.mapOpened opened f).Tidy where
  keyed := tidy.keyed.mapValues _
  owned place m stands := by
    rw [seat_mapOpened, Seat.mounted?_mapOpened] at stands
    obtain ⟨n, stood, rfl⟩ := Option.map_eq_some_iff.mp stands
    have owns := tidy.owned place n stood
    unfold Mounted.mapOpened
    split
    · exact owned n.panel _ owns
    · exact owns
  gone b mem := by
    obtain ⟨c, old, rfl⟩ := List.mem_map.mp mem
    have before := tidy.gone c old
    show (c.2.mapOpened opened f).panel.lifetime.running = []
    unfold Mounted.mapOpened
    split
    · exact silent c.2.panel before
    · exact before

/-- Two states of a desk with the same panels, as far as their watches go, in the same account. -/
structure Alike (d e : Desk) : Prop where
  account : e.account = d.account
  step : e.step = d.step
  widgets : e.widgets = d.widgets
  told : e.told = d.told
  watcher? : e.watcher? = d.watcher?
  tidy : d.Tidy → e.Tidy

namespace Alike

variable {d e f : Desk}

theorem of_seats (account : e.account = d.account) (step : e.step = d.step)
    (widgets : e.widgets = d.widgets) (seats : e.seats = d.seats) (gone : e.gone = d.gone) :
    d.Alike e where
  account := account
  step := step
  widgets := widgets
  told := by
    funext place
    simp only [Desk.told, seat, seats]
  watcher? := by
    funext place
    simp only [Desk.watcher?, seat, seats]
  tidy h := h.of_seats seats gone

theorem refl (d : Desk) : d.Alike d := .of_seats rfl rfl rfl rfl rfl

theorem trans (h : d.Alike e) (h' : e.Alike f) : d.Alike f where
  account := h'.account.trans h.account
  step := h'.step.trans h.step
  widgets := h'.widgets.trans h.widgets
  told := h'.told.trans h.told
  watcher? := h'.watcher?.trans h.watcher?
  tidy tidy := h'.tidy (h.tidy tidy)

theorem mapSearch (d : Desk) (made : Nat) (f : Search.Debounce → Search.Debounce) :
    d.Alike (d.mapSearch made f) where
  account := rfl
  step := rfl
  widgets := rfl
  told := by
    funext place
    simp only [Desk.told, seat, Desk.mapSearch, Table.get?_mapValues]
    cases d.seats.get? place with
    | none => rfl
    | some s => exact s.told_mapSearch made f
  watcher? := by
    funext place
    simp only [Desk.watcher?, seat, Desk.mapSearch, Table.get?_mapValues]
    cases d.seats.get? place with
    | none => rfl
    | some s => exact s.watcher_mapSearch made f
  tidy h := by
    refine ⟨h.keyed.mapValues _, fun place => ?_, h.gone⟩
    have owned := (d.seat place).owns_of_mapSearch made f (h.owned place)
    rw [seat, Desk.mapSearch, Table.get?_mapValues]
    unfold seat at owned
    cases found : d.seats.get? place with
    | none => rintro m ⟨⟩
    | some s => rwa [found] at owned

theorem agenda (d : Desk) (a : Agenda Task) : d.Alike { d with agenda := a } :=
  .of_seats rfl rfl rfl rfl rfl

end Alike

/-- A desk that has let go of something: at most its streams and its searches are other ones. -/
def Sheds (d e : Desk) : Prop :=
  ∃ streams lives searches, e = { d with streams, lives, searches }

namespace Sheds

variable {d e f : Desk}

private theorem refl (d : Desk) : d.Sheds d := ⟨_, _, _, rfl⟩

theorem trans (h : d.Sheds e) (h' : e.Sheds f) : d.Sheds f := by
  obtain ⟨_, _, _, rfl⟩ := h
  obtain ⟨streams, lives, searches, rfl⟩ := h'
  exact ⟨streams, lives, searches, rfl⟩

theorem alike (h : d.Sheds e) : d.Alike e := by
  obtain ⟨_, _, _, rfl⟩ := h
  exact .of_seats rfl rfl rfl rfl rfl

theorem agenda_eq (h : d.Sheds e) : e.agenda = d.agenda := by
  obtain ⟨_, _, _, rfl⟩ := h
  rfl

private theorem mapStreams (d : Desk) (f : Stream → Stream) :
    d.Sheds (d.mapStreams f) := ⟨_, _, _, rfl⟩

private theorem release (d : Desk) (made : Nat) : d.Sheds (d.release made) := by
  unfold Desk.release
  split
  · split
    · exact .refl d
    · exact ⟨_, _, _, rfl⟩
  · exact .refl d

theorem part (d : Desk) (made : Nat) (s : Option Search.Debounce) : d.Sheds (d.part made s) := by
  cases s with
  | none => exact .refl d
  | some s =>
    have kept : d.Sheds { d with searches := d.searches.insert made s } := ⟨_, _, _, rfl⟩
    exact kept.trans (.release _ made)

theorem partField (d : Desk) (m : Mounted) : d.Sheds (d.partField m) := by
  unfold Desk.partField
  split
  · exact .mapStreams d _
  · exact .refl d

end Sheds

theorem agenda_leavePanel (d : Desk) (place : String) (o : Occupant) :
    (d.leavePanel place o).agenda = d.agenda := by
  cases o with
  | panel m =>
    have sheds := ((Sheds.partField d m).trans (.part _ m.built m.panel.search)).trans
      (.mapStreams _ (Stream.leaveFlag (.panel m.opened) m.panel.searchEnabled))
    exact sheds.agenda_eq
  | _ => rfl

theorem alike_leavePanel (d : Desk) (place : String) {o : Occupant}
    (owned : ∀ m, o = .panel m → m.Owns) : d.Alike (d.leavePanel place o) := by
  cases o with
  | panel m =>
    have sheds := ((Sheds.partField d m).trans (.part _ m.built m.panel.search)).trans
      (.mapStreams _ (Stream.leaveFlag (.panel m.opened) m.panel.searchEnabled))
    have alike := sheds.alike
    refine alike.trans
      { account := rfl
        step := rfl
        widgets := rfl
        told := rfl
        watcher? := rfl
        tidy := fun tidy => ⟨tidy.keyed, tidy.owned, fun b mem => ?_⟩ }
    rcases List.mem_append.mp mem with before | last
    · exact tidy.gone b before
    · rw [List.mem_singleton.mp last]
      exact (owned m rfl).running_destroy
  | _ => exact .refl d

/-- Put something at a place, and leave all else as it is. -/
def putAt (d : Desk) (place : String) (o : Occupant) : Desk :=
  { d with seats := d.seats.insert place { d.seat place with occupant := o } }

section

variable (d : Desk) (place : String) (o : Occupant)

theorem seat_insert (s : Seat) (p : String) :
    { d with seats := d.seats.insert place s }.seat p = if p = place then s else d.seat p := by
  unfold seat
  rw [Table.get?_insert]
  split <;> rfl

theorem told_putAt : (d.putAt place o).told = d.told := by
  funext p
  unfold told putAt
  rw [seat_insert]
  split
  · next same => rw [same]
  · rfl

theorem watcher?_putAt :
    (d.putAt place o).watcher? = Function.update d.watcher? place (Occupant.watcher? o) := by
  funext p
  unfold watcher? putAt
  rw [seat_insert]
  by_cases same : p = place
  · rw [if_pos same, same, Function.update_self]
    cases o <;> rfl
  · rw [if_neg same, Function.update_of_ne same]

theorem Tidy.putAt {d : Desk} {o : Occupant} (tidy : d.Tidy) (place : String)
    (owned : ∀ m, o = .panel m → m.Owns) : (d.putAt place o).Tidy where
  keyed := tidy.keyed.insert place _
  owned p m stands := by
    unfold Desk.putAt at stands
    rw [seat_insert] at stands
    split at stands
    · cases o with
      | panel n =>
        obtain rfl : n = m := Option.some.inj stands
        exact owned n rfl
      | _ => cases stands
    · exact tidy.owned p m stands
  gone := tidy.gone

theorem putAt_putAt (o' : Occupant) : (d.putAt place o).putAt place o' = d.putAt place o' := by
  have here : (d.putAt place o).seat place = { d.seat place with occupant := o } := by
    rw [putAt, seat_insert, if_pos rfl]
  unfold putAt at here ⊢
  rw [here]
  simp only [Table.insert_insert]

end

end Desk

end PeerPanel
