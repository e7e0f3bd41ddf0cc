import PeerPanel.Proofs.Search.Automaton
import PeerPanel.Proofs.Search.FieldEdits
import PeerPanel.Proofs.Search.HitViews

/-!
What a search remembers of the query that it has applied, and what it publishes of it.

A query is applied at once, by an alarm, or by going back to one put aside, and each of these ways
has to remember its hits and to publish its text (`Debounce.Played`). So there are hits of the
applied query at all times, and those of any query are the ones with which it was put aside or those
of a search of the moment at which it was applied (`Debounce.exists_learns`); and a reader of the
published text that has nothing more to read was given the text of the applied query last. Main
statement: `Debounce.applied_query_remembered`.
-/

set_option autoImplicit false
set_option relaxedAutoImplicit false

namespace PeerPanel.Search

/-- What an event makes known of a query that it applies. -/
def Event.found (e : Event) (a : Account) (q : Query) : Hits :=
  match e with
  | restore s => s.found a
  | _ => run a q

namespace Debounce

variable {d d' : Debounce} {a : Account} {e : Event}

private theorem Played.hits?_cases (played : d.Played a d' e) {q : Query} {h : Hits}
    (known : d'.finder.hits? q = some h) :
    d.finder.hits? q = some h ∨ d'.applied = q ∧ h = e.found a q := by
  cases played with
  | stays finder text => exact .inl (by rwa [← finder])
  | applies r other finder text =>
    rw [finder] at known
    refine (Finder.hits?_apply_cases known).imp_right fun ⟨same, found, _⟩ => ?_
    subst same
    refine ⟨by rw [applied, finder]; rfl, ?_⟩
    cases e with
    | restore s => exact absurd rfl (other s)
    | _ => exact found
  | restores s finder text =>
    rw [finder, Finder.hits?_restore] at known
    split at known
    · next same =>
      subst same
      exact .inr ⟨by rw [applied, finder]; rfl, (Option.some.inj known).symm⟩
    · exact .inl known

/-- A search with at most one alarm that remembers the hits of the applied query and publishes its
text. -/
structure Presents (d : Debounce) : Prop where
  held : ∃ pending, d.Holds pending
  remembered : (d.finder.hits? d.applied).isSome = true
  published : d.appliedText.value = d.applied.text

private theorem presents_ofSaved (a : Account) (delay : Nat) (s : Saved) :
    (ofSaved a delay s).Presents where
  held := ⟨none, holds_ofSaved a s delay⟩
  remembered := (Finder.contains_known_restore _ _ _ _).mpr (.inl rfl)
  published := rfl

private theorem Presents.play (presents : d.Presents) (now : Moment) (a : Account) (e : Event) :
    (d.play now a e).Presents := by
  obtain ⟨⟨pending, held⟩, remembered, published⟩ := presents
  have both : ((d.play now a e).finder.hits? (d.play now a e).finder.applied).isSome = true ∧
      (d.play now a e).appliedText.value = (d.play now a e).finder.applied.text := by
    cases held.played now a e with
    | stays finder text =>
      rw [finder, text]
      exact ⟨remembered, published⟩
    | applies q other finder text =>
      rw [finder, text]
      exact ⟨Finder.hits?_applied_apply, rfl⟩
    | restores s finder text =>
      rw [finder, text, Finder.hits?_restore, Finder.applied_restore, if_pos rfl]
      exact ⟨rfl, rfl⟩
  exact ⟨held.play now a e, both.1, both.2⟩

private theorem Presents.run (presents : d.Presents) (now : Moment)
    (events : List (Account × Event)) :
    (d.run now events).Presents := by
  induction events generalizing d now with
  | nil => exact presents
  | cons p later ih =>
    obtain ⟨a, e⟩ := p
    exact ih (presents.play now a e) (now.next e.duration)

end Debounce

/-- The moment after some events. -/
def Moment.past (m : Moment) (events : List (Account × Event)) : Moment :=
  events.foldl (fun m p => m.next p.2.duration) m

namespace Debounce

private theorem run_append (d : Debounce) (now : Moment) (front back : List (Account × Event)) :
    d.run now (front ++ back) = (d.run now front).run (now.past front) back := by
  induction front generalizing d now with
  | nil => rfl
  | cons p later ih =>
    obtain ⟨a, e⟩ := p
    exact ih (d.play now a e) (now.next e.duration)

/-- A query has become known with some hits at the end of some events: a search was begun with it,
or the last event has applied it or gone back to it, and these hits were not known before. -/
inductive Learns (a : Account) (delay : Nat) (s : Saved) (now : Moment) (q : Query) (h : Hits) :
    List (Account × Event) → Prop
  | atFirst : q = s.query → h = s.found a → Learns a delay s now q h []
  | byEvent {front : List (Account × Event)} {b : Account} {e : Event} :
      ((ofSaved a delay s).run now front).finder.hits? q ≠ some h →
      ((ofSaved a delay s).run now (front ++ [(b, e)])).applied = q → h = e.found b q →
      Learns a delay s now q h (front ++ [(b, e)])

/-- What is remembered of a query is what has become known of it, and has not been forgotten
since. -/
theorem exists_learns (a : Account) (delay : Nat) (s : Saved) (now : Moment)
    (events : List (Account × Event)) {q : Query} {h : Hits}
    (known : ((ofSaved a delay s).run now events).finder.hits? q = some h) :
    ∃ front back, events = front ++ back ∧ Learns a delay s now q h front ∧
      ∀ mid, mid <+: back →
        ((ofSaved a delay s).run now (front ++ mid)).finder.hits? q = some h := by
  -- from the end: what is known was known before the last event, or was learnt in it
  induction events using List.reverseRecOn with
  | nil =>
    have restored : ((ofSaved a delay s).run now []).finder.hits? q =
        if q = s.query then some (s.found a) else none :=
      Finder.hits?_restore a q s
    refine ⟨[], [], rfl, ?_, fun mid within => by rwa [List.prefix_nil.mp within]⟩
    rw [restored] at known
    split at known
    · next same => exact .atFirst same (Option.some.inj known).symm
    · cases known
  | append_singleton events p ih =>
    obtain ⟨b, e⟩ := p
    obtain ⟨pending, held⟩ := ((presents_ofSaved a delay s).run now events).held
    have last : (ofSaved a delay s).run now (events ++ [(b, e)]) =
        ((ofSaved a delay s).run now events).play (now.past events) b e :=
      run_append _ now events [(b, e)]
    by_cases before : ((ofSaved a delay s).run now events).finder.hits? q = some h
    · obtain ⟨front, back, rfl, learns, remembered⟩ := ih before
      refine ⟨front, back ++ [(b, e)], List.append_assoc .., learns, fun mid within => ?_⟩
      rcases List.prefix_concat_iff.mp within with rfl | earlier
      · rwa [← List.append_assoc]
      · exact remembered mid earlier
    · have changed := (held.played (now.past events) b e).hits?_cases (by rwa [last] at known)
      obtain ⟨applied, found⟩ := changed.resolve_left before
      refine ⟨events ++ [(b, e)], [], (List.append_nil _).symm,
        .byEvent before (by rwa [last]) found, fun mid within => ?_⟩
      rwa [List.prefix_nil.mp within, List.append_nil]

/-- The applied text, as a text that nobody listens to. -/
def published (d : Debounce) : TextField Query := { text := d.appliedText }

end Debounce

/-- A search with a reader of the text that it publishes. -/
structure Reading where
  search : Debounce
  now : Moment
  reader : Audience.Reader := {}

inductive Reading.Move
  | act (a : Account) (e : Event)
  | poll

namespace Reading

def play (t : Reading) : Move → Reading
  | .act a e => { t with search := t.search.play t.now a e, now := t.now.next e.duration }
  | .poll => { t with reader := t.reader.poll t.search.published }

def run (t : Reading) (moves : List Move) : Reading := moves.foldl play t

/-- A search that presents what it has applied, and a reader that has met some of the texts that
there were. -/
structure Sound (t : Reading) : Prop where
  presents : t.search.Presents
  follows : ∃ held, Audience.Follows held t.search.appliedText t.reader

variable {t : Reading}

private theorem Sound.play (sound : t.Sound) (m : Move) : (t.play m).Sound := by
  obtain ⟨presents, held, follows⟩ := sound
  cases m with
  | act a e =>
    refine ⟨presents.play t.now a e, ?_⟩
    obtain ⟨pending, holds⟩ := presents.held
    show ∃ held, Audience.Follows held (t.search.play t.now a e).appliedText t.reader
    cases holds.played t.now a e with
    | stays finder text => exact ⟨held, by rwa [text]⟩
    | applies q other finder text => exact ⟨_, by rw [text]; exact follows.send q.text⟩
    | restores s finder text => exact ⟨_, by rw [text]; exact follows.send s.query.text⟩
  | poll =>
    have polled : Audience.Follows held t.search.published.text t.reader := follows
    exact ⟨presents, held, polled.poll⟩

private theorem Sound.run (sound : t.Sound) (moves : List Move) : (t.run moves).Sound := by
  induction moves generalizing t with
  | nil => exact sound
  | cons m later ih => exact ih (sound.play m)

private theorem Sound.getLast?_seen (sound : t.Sound)
    (drained : t.reader.next? t.search.published = none) :
    t.reader.seen.getLast? = some t.search.applied.text := by
  obtain ⟨presents, held, follows⟩ := sound
  rw [Audience.Reader.next?_eq] at drained
  split at drained
  · next level =>
    rw [← presents.published]
    exact follows.getLast?_seen level
  · cases drained

end Reading

namespace Debounce

/-- A search has hits of the applied query at all times, with which its views begin and which are
put aside with it. What it remembers of any query are the hits that a query was put aside with, or
those of a search of the moment at which it was applied or gone back to. The text that it publishes
is the one of the applied query, which is what a reader that has nothing more to read was given
last. -/
theorem applied_query_remembered (a : Account) (delay : Nat) (s : Saved) (now : Moment)
    (events : List (Account × Event)) :
    let d := (ofSaved a delay s).run now events
    (∃ h, d.finder.hits? d.applied = some h ∧
      (d.waiting = none → d.save = h.saved d.applied) ∧
      ∀ b around before after,
        (∀ f, h.merged = .error f → Panel.searchView d b around before after = .error f) ∧
        ∀ all, h.merged = .ok all → ∃ v, Panel.searchView d b around before after = .ok v ∧
          ∀ b', (v.poll b').map Prod.fst =
            .ok (some (.cut (d.applied.key around) .search all before after))) ∧
    (∀ q h, d.finder.hits? q = some h →
      ∃ front back, events = front ++ back ∧ Learns a delay s now q h front ∧
        ∀ mid, mid <+: back →
          ((ofSaved a delay s).run now (front ++ mid)).finder.hits? q = some h) ∧
    d.appliedText.value = d.applied.text ∧
    ∀ later moves,
      let t := ({ search := d, now := later } : Reading).run moves
      (t.reader.next? t.search.published = none →
        t.reader.seen.getLast? = some t.search.applied.text) ∧
      (t.play .poll).reader.next? t.search.published = none := by
  intro d
  have presents : d.Presents := (presents_ofSaved a delay s).run now events
  obtain ⟨h, known⟩ := Option.isSome_iff_exists.mp presents.remembered
  refine ⟨⟨h, known, fun idle => ?_, fun b around before after => ?_⟩,
    fun q h remembered => exists_learns a delay s now events remembered, presents.published,
    fun later moves => ?_⟩
  · rw [save, idle]
    exact Finder.save_of_hits? known
  · have opens := searchView_of_known b around before after known
    constructor
    · intro f fails
      rw [opens, fails]
      rfl
    · intro all merged
      rw [merged] at opens
      exact ⟨_, opens, fun b' => rfl⟩
  · have start : ({ search := d, now := later } : Reading).Sound :=
      ⟨presents, [d.appliedText.value], rfl, rfl⟩
    refine ⟨(start.run moves).getLast?_seen, ?_⟩
    rw [Audience.Reader.next?_eq, if_pos]
    exact Audience.Reader.seen_observer_poll _ _

end Debounce

end PeerPanel.Search
