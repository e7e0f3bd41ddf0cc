import PeerPanel.Proofs.Account.OneWayLinks
import PeerPanel.Proofs.Desk.Reopenings
import PeerPanel.Proofs.Panel.Admission

/-!
Opening a panel anew comes to an end.

The entry that is made for a peer is one of what the peer has become, and this leads no further. So
a panel that is opened on it either watches for nothing or watches a peer without links
(`Opening.OpensFresh.unlinked`), and its watch has nothing to ask for until a migration links the
peer. A navigator that answers every request by making the entry and opening it therefore answers
no more often than there are migrations, and once more for the panel that it began with
(`Answered.le_migrations`).
-/

set_option autoImplicit false
set_option relaxedAutoImplicit false

namespace PeerPanel

private theorem Panel.exists_ofEntry {e : Entry} {peer : PeerId} (subject : e.subject = .peer peer)
    (a : Account) (c : SearchConfig) (now : Search.Moment) : ∃ p, ofEntry a c now e = .ok p := by
  cases opens : ofEntry a c now e with
  | ok p => exact ⟨p, rfl⟩
  | error refusal =>
    have refused : ((bare e).rebuild a c now e).1 = .error refusal := by
      unfold ofEntry at opens
      split at opens
      · cases opens
      · next rebuilt =>
        cases opens
        rw [rebuilt]
    obtain ⟨media, ⟨other, -⟩ | ⟨-, unowned, -⟩⟩ :=
      searchFor_eq_error_iff.mp (rebuild_fst_eq_error_iff.mp refused)
    · rw [Entry.isMedia, show e.shown.media?.isSome = true from media] at other
      cases other
    · rw [show (bare e).subject = .peer peer from subject] at unowned
      cases unowned

namespace Desk

open Account (Change)

/-- Whether a move makes a steady change, if it makes one. -/
def Move.isSteady (d : Desk) : Move → Bool
  | .change c => c.isSteady d.account
  | _ => true

def Move.isMigration : Move → Bool
  | .change (.migration _ _) => true
  | _ => false

def steadyFrom : Desk → List Move → Bool
  | _, [] => true
  | d, m :: later => m.isSteady d && steadyFrom (d.play m) later

/-- Every change is steady in the account in which it is made. -/
def Steady (moves : List Move) : Prop := steadyFrom {} moves = true

instance (moves : List Move) : Decidable (Steady moves) :=
  inferInstanceAs (Decidable (_ = true))

private theorem steadyFrom_append (d : Desk) (front back : List Move) :
    steadyFrom d (front ++ back) =
      (steadyFrom d front && steadyFrom (front.foldl play d) back) := by
  induction front generalizing d with
  | nil => rfl
  | cons m later ih => rw [List.cons_append, steadyFrom, steadyFrom, ih, Bool.and_assoc]; rfl

section

variable {front back moves : List Move} {m : Move}

private theorem Steady.left (steady : Steady (front ++ back)) : Steady front := by
  rw [Steady, steadyFrom_append, Bool.and_eq_true] at steady
  exact steady.1

private theorem Steady.move (steady : Steady (front ++ m :: back)) :
    m.isSteady (run front) = true := by
  rw [Steady, steadyFrom_append, steadyFrom, Bool.and_eq_true, Bool.and_eq_true] at steady
  exact steady.2.1

private theorem Steady.leadsToChannels (steady : Steady moves) :
    (run moves).account.LeadsToChannels := by
  induction moves using List.reverseRecOn with
  | nil => exact Account.leadsToChannels_empty
  | append_singleton moves m ih =>
    have before := ih steady.left
    rcases (stepped_run moves m).account_cases with same | ⟨c, rfl, changed⟩
    · rwa [same]
    · rw [changed]
      exact before.apply steady.move

private theorem links_run {peer : PeerId} (unlinked : (run front).account.links peer = (none, none))
    (apart : ∀ c, .change c ∈ back → c.mayLink peer = false) :
    (run (front ++ back)).account.links peer = (none, none) := by
  induction back using List.reverseRecOn with
  | nil => rwa [List.append_nil]
  | append_singleton back m ih =>
    have before := ih fun c mem => apart c (List.mem_append_left _ mem)
    rw [← List.append_assoc]
    rcases (stepped_run (front ++ back) m).account_cases with same | ⟨c, rfl, changed⟩
    · rwa [same]
    · rw [changed]
      exact Account.links_apply_of_not_mayLink before (apart c (by simp))

private theorem isMigration_of_mayLink {c : Change} {peer : PeerId} {a : Account}
    (steady : c.isSteady a = true) (links : c.mayLink peer = true) :
    (Move.change c).isMigration = true := by
  cases c with
  | peer p =>
    have plain : p.isLinked = false := by
      rw [Change.isSteady, Bool.and_eq_true, Bool.not_eq_true'] at steady
      exact steady.1
    rw [Change.mayLink, plain, Bool.and_false] at links
    cases links
  | migration chat channel => rfl
  | _ => cases links

end

namespace Opening

/-- The panel is opened on the entry that is made for a section of a peer, which is one of what the
peer has become. -/
def OpensFresh (o : Opening) (present : PeerId) : Prop :=
  ∃ id s e, (run o.before).entries.get? o.entry = some e ∧
    Entry.default (run o.before).account id s = .ok e ∧ e.subject = .peer present

variable {o : Opening} {since : List Move} {peer present : PeerId} {w : Watcher}

private theorem stands_of_subject {e : Entry}
    (stored : (run o.before).entries.get? o.entry = some e) (subject : e.subject = .peer peer) :
    o.Stands [] ((run o.before).openedWatcher e o.widget) := by
  refine ⟨?_, rfl⟩
  obtain ⟨panel, opens⟩ := Panel.exists_ofEntry subject (run o.before).account
    (run o.before).config.search (run o.before).nextStep.moment
  obtain ⟨m, watcher, -, left⟩ :=
    after_openPanel_of_ofEntry (run o.before).nextStep o.place o.entry stored opens o.widget
  have sheds : ((run o.before).nextStep.putAt o.place (.panel m)).Alike
      (((run o.before).nextStep.putAt o.place (.panel m)).enroll.leavePanel o.place
        ((run o.before).nextStep.seat o.place).occupant) :=
    (Alike.agenda _ _).trans
      (alike_leavePanel _ o.place ((sound_run o.before).nextStep.owns_occupant o.place))
  rw [moves, run_append_singleton, play, after_inStep, (alike_stir _).watcher?, left,
    sheds.watcher?, watcher?_putAt, Function.update_self, Occupant.watcher?, watcher]
  rfl

theorem OpensFresh.unlinked (fresh : o.OpensFresh present) (steady : Steady o.before)
    (watches : (run o.before).OpensWatch o.entry peer) :
    peer = present ∧ (run o.before).account.links peer = (none, none) := by
  obtain ⟨id, s, e, stored, opens, subject⟩ := fresh
  obtain ⟨e', record, stored', owner, alone, found, noUser⟩ := watches
  rw [stored] at stored'
  cases stored'
  rw [subject] at owner
  cases owner
  refine ⟨rfl, steady.leadsToChannels.links_of_default opens subject alone ?_⟩
  rw [Account.kind?, found]
  simpa using noUser

private theorem OpensFresh.requests_eq_zero (fresh : o.OpensFresh present)
    (steady : Steady o.before)
    (apart : ∀ c, .change c ∈ since → c.mayLink present = false) : o.requests since = 0 := by
  induction since using List.reverseRecOn with
  | nil => rfl
  | append_singleton since m ih =>
    have fewer : ∀ c, .change c ∈ since → c.mayLink present = false :=
      fun c mem => apart c (List.mem_append_left _ mem)
    rw [requests_append_singleton, ih fewer, Nat.zero_add]
    by_contra fires
    obtain ⟨rfl, w, v, rest, stands, watch, next⟩ :=
      exists_turn_of_firingsIn_pos (Nat.pos_of_ne_zero fires)
    obtain ⟨rfl, before⟩ := fresh.unlinked steady (stands.opensWatch_iff.mpr (by rw [watch]; rfl))
    have unlinked : (run (o.moves since)).account.links v.peer = (none, none) :=
      links_run before fun c mem => fewer c (by simpa using mem)
    rcases reads : v.readAll ((v.pause? (run (o.moves since)).account).getD
      (run (o.moves since)).account) with ⟨notices, v'⟩
    obtain ⟨-, asks⟩ := (sound_run (o.moves since)).turn_of_watch next stands.here watch reads
    rw [Account.any_isLinked_eq_false unlinked, if_neg Bool.false_ne_true] at asks
    rw [firingsIn, ← show w.opened = o.opened from stands.opened] at fires
    exact fires asks

private theorem OpensFresh.one_le_migrations (fresh : o.OpensFresh present)
    (steady : Steady (o.moves since)) (fires : Fires o since peer w) :
    1 ≤ since.countP Move.isMigration := by
  obtain ⟨-, before⟩ := fresh.unlinked steady.left fires.opens
  have linking : ∃ c, .change c ∈ since ∧ c.mayLink peer = true := by
    by_contra unlinking
    have unlinked : (run (o.moves since)).account.links peer = (none, none) := by
      refine links_run before fun c mem => ?_
      by_contra links
      exact unlinking ⟨c, by simpa using mem, by simpa using links⟩
    have linked := fires.linked
    rw [Account.any_isLinked_eq_false unlinked] at linked
    cases linked
  obtain ⟨c, mem, links⟩ := linking
  obtain ⟨early, late, rfl⟩ := List.append_of_mem mem
  have made : c.isSteady (run (o.moves early)).account = true := by
    rw [moves_append] at steady
    exact steady.move
  exact List.one_le_countP_iff.mpr ⟨_, mem, isMigration_of_mayLink made links⟩

end Opening

/-- A navigator answers requests one after the other: a watch fires, and later its request is
resolved and the entry is opened, at whatever place. Counted are the answers since the first
opening. -/
inductive Answered (first : Opening) : Opening → Nat → Prop
  | first : Answered first first 0
  | next {o : Opening} {n : Nat} {since : List Move} {peer : PeerId} {w : Watcher} {e : Entry}
      (later : List Move) (place entry : String) (widget : Option String) :
      Answered first o n → Fires o since peer w →
      (run (o.moves (since ++ .turn :: later))).entries.get? entry = some e →
      (Request.fresh peer w.pane.shown).resolve
        (run (o.moves (since ++ .turn :: later))).account = .ok e →
      Answered first ⟨o.moves (since ++ .turn :: later), place, entry, widget⟩ (n + 1)

theorem Answered.le_migrations {first o : Opening} {n : Nat} (answered : Answered first o n)
    (steady : Steady o.before) :
    first.before.countP Move.isMigration + (n - 1) ≤ o.before.countP Move.isMigration ∧
      (0 < n → ∃ present, o.OpensFresh present) := by
  induction answered with
  | first => exact ⟨Nat.le_refl _, fun pos => absurd pos (Nat.lt_irrefl 0)⟩
  | @next o n since peer w e later place entry widget _ fires stored resolves ih =>
    obtain ⟨before, fresh⟩ := ih steady.left
    have opens : Entry.default (run (o.moves (since ++ .turn :: later))).account peer
        w.pane.shown = .ok e := resolves
    refine ⟨?_, fun _ => ⟨_, peer, _, e, stored, opens, (Account.subject_default opens).1⟩⟩
    have count : (o.moves (since ++ .turn :: later)).countP Move.isMigration =
        o.before.countP Move.isMigration + since.countP Move.isMigration +
          later.countP Move.isMigration := by
      simp [Opening.moves, Move.isMigration, Nat.add_assoc]
    rw [count]
    cases n with
    | zero => omega
    | succ n =>
      obtain ⟨present, fresh⟩ := fresh (Nat.succ_pos n)
      rw [Opening.moves_append] at steady
      have migrated := fresh.one_le_migrations steady.left fires
      omega

/-- Where records are put in place without links and keep their kind, and chats become channels and
nothing else migrates: what is opened for the peer of an entry that is made for a peer is that
entry again. A panel can be opened on it, and asks for nothing as long as no migration touches its
peer, so its window is asked for no more than it was before if no other panel is opened. And a
navigator that answers requests by making entries and opening them answers once, and once more at
most for every migration after the opening that it began with. -/
theorem reopening_settles (moves : List Move) (steady : Steady moves) :
    (∀ id s e, Entry.default (run moves).account id s = .ok e →
      ∃ peer, e.subject = .peer peer ∧ Entry.default (run moves).account peer s = .ok e ∧
        ∀ o : Opening, o.before = moves → (run moves).entries.get? o.entry = some e →
          (∃ w, o.Stands [] w) ∧
          ∀ since, (∀ c, .change c ∈ since → c.mayLink peer = false) →
            o.requests since = 0 ∧
            ((∀ name widget, .openPanel o.place name widget ∉ since) →
              (run (o.moves since)).asked o.place ≤ (run moves).asked o.place)) ∧
    (∀ first o n, o.before = moves → Answered first o n →
      n + first.before.countP Move.isMigration ≤ 1 + moves.countP Move.isMigration) := by
  constructor
  · intro id s e opens
    obtain ⟨peer, subject, again⟩ := steady.leadsToChannels.default_of_present opens
    refine ⟨peer, subject, again, ?_⟩
    rintro o rfl stored
    have stands := Opening.stands_of_subject stored subject
    refine ⟨⟨_, stands⟩, fun since apart => ?_⟩
    have fresh : o.OpensFresh peer := ⟨id, s, e, stored, opens, subject⟩
    have nothing := fresh.requests_eq_zero steady apart
    refine ⟨nothing, fun alone => ?_⟩
    have asked := Opening.asked_le_requests stands alone
    rwa [nothing] at asked
  · rintro first o n rfl answered
    obtain ⟨bound, -⟩ := answered.le_migrations steady
    omega

/-- A panel of a chat stands, with a widget. -/
def staleOpening : Opening where
  before := [.change (.peer { id := ⟨1⟩, kind := .chat, name := "Chat" }),
    .change (.peer { id := ⟨2⟩, kind := .channel, name := "Channel" }),
    .makeWidget "widget" true .layer, .store "stale" (.profile ⟨1⟩ none)]
  place := "panel"
  entry := "stale"
  widget := some "widget"

/-- The chat becomes a channel, and the channel loses its half of the link to a new record. -/
def halfLinked : List Move :=
  [.change (.migration ⟨1⟩ ⟨2⟩),
    .change (.peer { id := ⟨2⟩, kind := .channel, name := "Renamed" })]

/-- The request is resolved and opened, without the earlier chat beside the channel. -/
def answer : Opening where
  before := staleOpening.moves (halfLinked ++ .turn :: [.store "again" (.profile ⟨2⟩ none)])
  place := "panel"
  entry := "again"
  widget := some "widget"

private theorem stale_panel_fires :
    ∃ w, Fires staleOpening halfLinked ⟨1⟩ w ∧ w.pane.shown = .profile := by
  have there : ((run (staleOpening.moves halfLinked)).watcher? "panel").isSome = true := by
    decide +kernel
  obtain ⟨w, here⟩ := Option.isSome_iff_exists.mp there
  have facts : ((run (staleOpening.moves halfLinked)).watcher? "panel").map
      (fun w => (w.opened, w.pane.shown, w.watch)) =
        some (5, .profile, some { peer := ⟨1⟩, aspects := .ofMigration, place := 0 }) := by
    decide +kernel
  rw [here] at facts
  have opened : w.opened = 5 := congrArg (·.1) (Option.some.inj facts)
  have shown : w.pane.shown = .profile := congrArg (·.2.1) (Option.some.inj facts)
  have watch : w.watch = some { peer := ⟨1⟩, aspects := .ofMigration, place := 0 } :=
    congrArg (·.2.2) (Option.some.inj facts)
  have stands : staleOpening.Stands halfLinked w := ⟨here, by rw [opened]; decide +kernel⟩
  have next : (run (staleOpening.moves halfLinked)).agenda.next?.map (·.1) = some (.watch 5) := by
    decide +kernel
  obtain ⟨⟨task, rest⟩, next, same⟩ := Option.map_eq_some_iff.mp next
  obtain rfl : task = .watch 5 := same
  rw [← opened] at next
  exact ⟨w, stands.fires watch next (by decide +kernel), shown⟩

/-- The panel that answers the request of the chat asks for nothing again. -/
theorem half_link_answered_once :
    Steady answer.before ∧ Answered staleOpening answer 1 ∧
      (∀ n, Answered staleOpening answer n → n ≤ 2) ∧
      (∃ w, answer.Stands [] w) ∧
      answer.requests [.turn, .change (.peer { id := ⟨2⟩, kind := .channel, name := "" }), .turn] =
        0 := by
  have steady : Steady answer.before := by decide +kernel
  obtain ⟨w, fires, shown⟩ := stale_panel_fires
  have answered : Answered staleOpening answer 1 := by
    refine .next [.store "again" (.profile ⟨2⟩ none)] "panel" "again" (some "widget") .first fires
      (e := .profile ⟨2⟩ none) (by decide +kernel) ?_
    rw [shown]
    decide +kernel
  obtain ⟨settles, bounded⟩ := reopening_settles answer.before steady
  obtain ⟨peer, subject, -, opened⟩ :=
    settles ⟨1⟩ .profile (.profile ⟨2⟩ none) (by decide +kernel)
  cases subject
  obtain ⟨stands, asks⟩ := opened answer rfl (by decide +kernel)
  have none : staleOpening.before.countP Move.isMigration = 0 := by decide
  have one : answer.before.countP Move.isMigration = 1 := by decide
  refine ⟨steady, answered, fun n more => ?_, stands, (asks _ ?_).1⟩
  · have bound := bounded staleOpening answer n rfl more
    rw [none, one] at bound
    exact bound
  · intro c mem
    simp only [List.mem_cons, reduceCtorEq, Move.change.injEq, List.not_mem_nil, or_false,
      false_or] at mem
    rw [mem]
    decide

end Desk

end PeerPanel
