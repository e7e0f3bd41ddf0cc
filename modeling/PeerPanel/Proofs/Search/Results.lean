import PeerPanel.Proofs.Account.MergedTimeline
import PeerPanel.Proofs.Account.TextSearch
import PeerPanel.Proofs.Search.Finder
import PeerPanel.Search.Debounce

/-!
What a query finds, against the merged timeline.

A search walks the media lists of the two histories and merges its hits afterwards, while the merged
timeline is built from the same lists without a look at any message. While the numbers of the two
histories keep apart, a position resolves to the message whose number it was made from, so the two
ways lead to the same list: the hits are the positions of the timeline that resolve to a message
whose text holds the one searched for (`hits_are_matching_positions`).
-/

set_option autoImplicit false
set_option relaxedAutoImplicit false

namespace PeerPanel

open Account (Change)
open TimelineId (ofMain lowered)

namespace TimelineId

private theorem isMigrated_ofMain {n : MsgId} (h : 0 ≤ n.number) :
    (ofMain n).isMigrated = false := by
  have above : ¬ n.number < 0 := by omega
  simp [isMigrated, ofMain, above]

private theorem isMigrated_lowered {n : MsgId} (h : n.number < historyShift) :
    (lowered n).isMigrated = true := by
  have below : n.number - historyShift < 0 := by omega
  simp [isMigrated, lowered, below]

private theorem msg_ofMain {n : MsgId} (h : 0 ≤ n.number) : (ofMain n).msg = n := by
  rw [msg, isMigrated_ofMain h]
  rfl

private theorem msg_lowered {n : MsgId} (h : n.number < historyShift) : (lowered n).msg = n := by
  rw [msg, isMigrated_lowered h, if_pos rfl, lowered, Int.sub_add_cancel]

private theorem parts_of_merged {earlier own : List MsgId}
    (high : ∀ n ∈ earlier, n.number < historyShift) (above : ∀ n ∈ own, 0 ≤ n.number) :
    ((earlier.map lowered ++ own.map ofMain).filter (·.isMigrated)).map (·.msg) = earlier ∧
    ((earlier.map lowered ++ own.map ofMain).filter (!·.isMigrated)).map (·.msg) = own := by
  have allEarlier : ∀ n ∈ earlier, (lowered n).isMigrated = true :=
    fun n hn => isMigrated_lowered (high n hn)
  have noneOwn : ∀ n ∈ own, (ofMain n).isMigrated = false :=
    fun n hn => isMigrated_ofMain (above n hn)
  have readEarlier : earlier.map (fun n => (lowered n).msg) = earlier := by
    rw [List.map_congr_left fun n hn => msg_lowered (high n hn), List.map_id']
  have readOwn : own.map (fun n => (ofMain n).msg) = own := by
    rw [List.map_congr_left fun n hn => msg_ofMain (above n hn), List.map_id']
  simp only [List.filter_append, List.filter_map, List.map_append, List.map_map,
    Function.comp_def]
  constructor
  · rw [List.filter_eq_self.mpr allEarlier, List.filter_eq_nil_iff.mpr (by simpa using noneOwn),
      List.map_nil, List.append_nil, readEarlier]
  · rw [List.filter_eq_nil_iff.mpr (by simpa using allEarlier),
      List.filter_eq_self.mpr (by simpa using noneOwn), List.map_nil, List.nil_append, readOwn]

end TimelineId

namespace Search

/-- A position resolves to a message whose text holds the one that a query searches for. -/
def Query.finds (q : Query) (a : Account) (t : TimelineId) : Bool :=
  (t.resolve q.peer q.migrated).any (a.textHolds q.text)

private theorem finds_ofMain (q : Query) (a : Account) {n : MsgId} (h : 0 ≤ n.number) :
    q.finds a (ofMain n) = a.textHolds q.text ⟨q.peer, n⟩ := by
  rw [Query.finds, TimelineId.resolve_ofMain h]
  rfl

private theorem finds_lowered {q : Query} {earlier : PeerId} (hq : q.migrated = some earlier)
    (a : Account) {n : MsgId} (h : n.number < historyShift) :
    q.finds a (lowered n) = a.textHolds q.text ⟨earlier, n⟩ := by
  rw [Query.finds, hq, TimelineId.resolve_lowered h]
  rfl

section

variable {a : Account} {q : Query}

private theorem run_eq_filter (typed : q.text ≠ "")
    (above : ∀ n ∈ (a.history.listed q.peer q.kind).ids, 0 ≤ n.number)
    (high : ∀ n ∈ a.earlierIds q.migrated q.kind, n.number < historyShift) :
    run a q =
      { peer := (a.history.listed q.peer q.kind).ids.filter fun n => q.finds a (ofMain n)
        migrated := q.migrated.map fun _ =>
          (a.earlierIds q.migrated q.kind).filter fun n => q.finds a (lowered n) } := by
  have own : a.searchMedia q.peer q.kind q.text =
      (a.history.listed q.peer q.kind).ids.filter fun n => q.finds a (ofMain n) := by
    rw [Account.searchMedia_eq_filter]
    exact List.filter_congr fun n hn => (finds_ofMain q a (above n hn)).symm
  have earlier : (q.migrated.map fun p => a.searchMedia p q.kind q.text) =
      q.migrated.map fun _ =>
        (a.earlierIds q.migrated q.kind).filter fun n => q.finds a (lowered n) := by
    cases hq : q.migrated with
    | none => rfl
    | some p =>
      rw [hq] at high
      rw [Option.map_some, Option.map_some, Account.searchMedia_eq_filter]
      exact congrArg some (List.filter_congr fun n hn => (finds_lowered hq a (high n hn)).symm)
  rw [run, if_neg typed, own, earlier]

private theorem merged_run (typed : q.text ≠ "")
    (above : ∀ n ∈ (a.history.listed q.peer q.kind).ids, 0 ≤ n.number)
    (fits : ∀ n ∈ a.earlierIds q.migrated q.kind,
      -2 ^ 63 + historyShift ≤ n.number ∧ n.number < historyShift) :
    let found := ((a.earlierIds q.migrated q.kind).map lowered ++
      (a.history.listed q.peer q.kind).ids.map ofMain).filter (q.finds a)
    (run a q).merged = .ok found ∧
    run a q =
      { peer := (found.filter (!·.isMigrated)).map (·.msg)
        migrated := q.migrated.map fun _ => (found.filter (·.isMigrated)).map (·.msg) } := by
  intro found
  have hits := run_eq_filter typed above fun n hn => (fits n hn).2
  have split : found =
      ((a.earlierIds q.migrated q.kind).filter fun n => q.finds a (lowered n)).map lowered ++
        ((a.history.listed q.peer q.kind).ids.filter fun n => q.finds a (ofMain n)).map ofMain := by
    simp only [found, List.filter_append, List.filter_map]
    rfl
  obtain ⟨earlier, own⟩ := TimelineId.parts_of_merged
    (fun n hn => (fits n (List.mem_filter.mp hn).1).2)
    (fun n hn => above n (List.mem_filter.mp hn).1)
  refine ⟨?_, ?_⟩
  · have kept : ((run a q).migrated.getD []) =
        (a.earlierIds q.migrated q.kind).filter fun n => q.finds a (lowered n) := by
      rw [hits]
      cases q.migrated <;> rfl
    rw [Hits.merged, kept,
      TimelineId.mapM_ofMigrated_eq_ok fun n hn => fits n (List.mem_filter.mp hn).1, hits, split]
    rfl
  · rw [split, earlier, own, hits]

end

/-- While the numbers of a peer are not negative and those of its earlier chat lie within one shift
of the lowest and below the shift, a query with a text finds the positions of the merged timeline
that resolve to a message whose text holds it, in their order. A search for it keeps the numbers of
the peer and of the earlier chat among them apart. No media list shows a number without a message,
so a search meets none. -/
theorem hits_are_matching_positions (changes : List Change) (q : Query) :
    let a := Account.after changes
    (q.text ≠ "" →
      (∀ id, id.peer = q.peer → a.Shows q.kind id → 0 ≤ id.msg.number) →
      (∀ id, some id.peer = q.migrated → a.Shows q.kind id →
        -2 ^ 63 + historyShift ≤ id.msg.number ∧ id.msg.number < historyShift) →
      ∃ all, a.mergedMedia q.peer q.migrated q.kind = .ok all ∧ all.Pairwise (· < ·) ∧
        let found := all.filter (q.finds a)
        (run a q).merged = .ok found ∧ found.Pairwise (· < ·) ∧
        let kept : Saved :=
          { query := q
            peerHits := some ((found.filter (!·.isMigrated)).map (·.msg))
            migratedHits := q.migrated.map fun _ => (found.filter (·.isMigrated)).map (·.msg) }
        (∀ d : Debounce, d.finder.knows q = false → (d.applyNow a q).save = kept) ∧
        (∀ delay (s : Saved), s.query = q → s.peerHits = none →
          (Debounce.ofSaved a delay s).save = kept)) ∧
    (∀ p k n, n ∈ a.history.listed p k → ∃ m, a.message? ⟨p, n⟩ = some m) := by
  intro a
  have coherent : a.Coherent := Account.coherent_after changes
  constructor
  · intro typed own earlier
    have above : ∀ n ∈ (a.history.listed q.peer q.kind).ids, 0 ≤ n.number := by
      intro n hn
      exact own ⟨q.peer, n⟩ rfl (coherent.mem_listed_history.mp hn)
    have fits : ∀ n ∈ a.earlierIds q.migrated q.kind,
        -2 ^ 63 + historyShift ≤ n.number ∧ n.number < historyShift := by
      intro n hn
      obtain ⟨p, hp, shows⟩ := coherent.mem_earlierIds.mp hn
      exact earlier ⟨p, n⟩ hp.symm shows
    have ascending := Account.merged_ascending above fun n hn => (fits n hn).2
    obtain ⟨merged, hits⟩ := merged_run typed above fits
    refine ⟨_, Account.mergedMedia_eq_ok fits, ascending, merged, ascending.filter _, ?_, ?_⟩
    · intro d unknown
      have put : (d.applyNow a q).save = (run a q).saved q :=
        Finder.save_apply_of_unknown a q unknown
      rw [put, hits]
      rfl
    · rintro delay s rfl unsaved
      have put : (Debounce.ofSaved a delay s).save = (run a s.query).saved s.query :=
        Finder.save_restore_of_no_peerHits a s unsaved
      rw [put, hits]
      rfl
  · intro p k n listed
    obtain ⟨m, stored, -⟩ := coherent.mem_listed_history.mp listed
    exact ⟨m, stored⟩

def noteOf (p : PeerId) (n : Int) (text : String) : Change :=
  .message { id := ⟨p, ⟨n⟩⟩, text, attachment := some .file }

/-- Notes at the bounds of the two histories, and one more message at the lowest of them. -/
def boundaryNotes : List Change :=
  [noteOf ⟨2⟩ 0 "New NOTES", noteOf ⟨1⟩ (historyShift - 1) "Old notes",
    noteOf ⟨1⟩ (-2 ^ 63 + historyShift) "Plans"]

def noteQuery : Query := { kind := .file, peer := ⟨2⟩, migrated := some ⟨1⟩, text := "Note" }

/-- A search across the bounds finds the notes on both sides and leaves the lowest message out. -/
theorem notes_found_at_the_bounds :
    (run (Account.after boundaryNotes) noteQuery).merged = .ok [⟨-1⟩, ⟨0⟩] ∧
    (Debounce.ofSaved (Account.after boundaryNotes) 200 { query := noteQuery }).save =
      { query := noteQuery
        peerHits := some [⟨0⟩]
        migratedHits := some [⟨historyShift - 1⟩] } := by
  have numbers : ∀ id, (Account.after boundaryNotes).Shows .file id →
      id = ⟨⟨2⟩, ⟨0⟩⟩ ∨ id = ⟨⟨1⟩, ⟨historyShift - 1⟩⟩ ∨
        id = ⟨⟨1⟩, ⟨-2 ^ 63 + historyShift⟩⟩ := by
    intro id shows
    obtain ⟨m, mem, rfl⟩ := Account.mem_of_shows shows
    simp only [boundaryNotes, noteOf, List.mem_cons, Change.message.injEq, List.not_mem_nil,
      or_false] at mem
    rcases mem with rfl | rfl | rfl <;> simp
  obtain ⟨all, merged, -, hits, -, -, saved⟩ :=
    (hits_are_matching_positions boundaryNotes noteQuery).1 (by decide)
      (by
        intro id own shows
        rcases numbers id shows with rfl | rfl | rfl
        · decide
        · cases own
        · cases own)
      (by
        intro id earlier shows
        rcases numbers id shows with rfl | rfl | rfl
        · cases earlier
        · decide
        · decide)
  have positions : (Account.after boundaryNotes).mergedMedia ⟨2⟩ (some ⟨1⟩) .file =
      .ok [⟨-2 ^ 63⟩, ⟨-1⟩, ⟨0⟩] := by
    decide +kernel
  obtain rfl : [⟨-2 ^ 63⟩, ⟨-1⟩, ⟨0⟩] = all := Except.ok.inj (positions.symm.trans merged)
  constructor
  · rw [hits]
    decide +kernel
  · rw [saved 200 { query := noteQuery } rfl rfl]
    decide +kernel

end Search

end PeerPanel
