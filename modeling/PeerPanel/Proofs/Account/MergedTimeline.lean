import Mathlib.Algebra.Ring.Int.Defs
import PeerPanel.Proofs.Account.History

/-!
The merged timeline of a peer and of the chat that it was before.

Numbers of the earlier chat are lowered and those of the peer are kept. While the lowered ones stay
below zero and the kept ones do not, a position tells whose message it is and which one
(`resolve_lowered`, `resolve_ofMain`). So the timeline lists the messages of the two histories once
each, those of the earlier chat first, in one ascending order: `merged_timeline_faithful`.
-/

set_option autoImplicit false
set_option relaxedAutoImplicit false

namespace PeerPanel

namespace TimelineId

/-- The position of a message of the earlier chat, where it is a 64-bit number. -/
def lowered (n : MsgId) : TimelineId := ⟨n.number - historyShift⟩

private theorem ofMigrated_eq_ok {n : MsgId} (low : -2 ^ 63 + historyShift ≤ n.number)
    (high : n.number < historyShift) : ofMigrated n = .ok (lowered n) := by
  have fits : -9223372036854775808 ≤ n.number - historyShift ∧
      n.number - historyShift ≤ 9223372036854775807 := by
    omega
  rw [ofMigrated, subtract, if_pos fits]
  rfl

theorem ofMigrated_eq_error_iff {n : MsgId} {fault : Fault} :
    ofMigrated n = .error fault ↔ fault = .subtraction ∧
      (n.number < -2 ^ 63 + historyShift ∨ 2 ^ 63 + historyShift ≤ n.number) := by
  unfold ofMigrated subtract
  split
  · next fits =>
    refine ⟨by rintro ⟨⟩, fun ⟨_, misfits⟩ => ?_⟩
    omega
  · next misfits =>
    constructor
    · rintro ⟨⟩
      exact ⟨rfl, by omega⟩
    · rintro ⟨rfl, -⟩
      rfl

theorem mapM_ofMigrated_eq_ok {l : List MsgId}
    (fits : ∀ n ∈ l, -2 ^ 63 + historyShift ≤ n.number ∧ n.number < historyShift) :
    l.mapM ofMigrated = .ok (l.map lowered) := by
  induction l with
  | nil => rfl
  | cons n rest ih =>
    obtain ⟨low, high⟩ := fits n List.mem_cons_self
    rw [List.mapM_cons, ofMigrated_eq_ok low high,
      ih fun m hm => fits m (List.mem_cons_of_mem n hm)]
    rfl

theorem mapM_ofMigrated_eq_error_iff {l : List MsgId} {fault : Fault} :
    l.mapM ofMigrated = .error fault ↔ ∃ n ∈ l, ofMigrated n = .error fault := by
  induction l with
  | nil => simp [pure, Except.pure]
  | cons n later ih =>
    simp only [List.mapM_cons, List.mem_cons, exists_eq_or_imp, ← ih]
    cases lowers : ofMigrated n with
    | ok t => cases later.mapM ofMigrated <;> simp [bind, Except.bind, pure, Except.pure]
    | error f =>
      -- there is only one fault, so it does not matter which number is met first
      have only : f = .subtraction := (ofMigrated_eq_error_iff.mp lowers).1
      have same : later.mapM ofMigrated = .error fault → fault = .subtraction := by
        intro fails
        obtain ⟨m, -, stops⟩ := ih.mp fails
        exact (ofMigrated_eq_error_iff.mp stops).1
      simp only [bind, Except.bind, Except.error.injEq]
      exact ⟨.inl, fun either => either.elim id fun fails => only.trans (same fails).symm⟩

theorem resolve_ofMain {n : MsgId} (h : 0 ≤ n.number) (p : PeerId) (q : Option PeerId) :
    (ofMain n).resolve p q = some ⟨p, n⟩ := by
  have above : ¬ n.number < 0 := by omega
  simp [resolve, isMigrated, msg, ofMain, above]

theorem resolve_lowered {n : MsgId} (h : n.number < historyShift) (p q : PeerId) :
    (lowered n).resolve p (some q) = some ⟨q, n⟩ := by
  have below : n.number - historyShift < 0 := by omega
  simp [resolve, isMigrated, msg, lowered, below]

end TimelineId

namespace Account

open TimelineId

/-- The history holds a message under a number, and a media list shows it. -/
def Shows (a : Account) (k : MediaKind) (id : FullId) : Prop :=
  ∃ m, a.message? id = some m ∧ k ∈ m.lists

theorem Coherent.mem_listed_history {a : Account} (coherent : a.Coherent) {p : PeerId}
    {k : MediaKind} {n : MsgId} : n ∈ a.history.listed p k ↔ a.Shows k ⟨p, n⟩ :=
  coherent.listed (s := false)

/-- The numbers of the earlier chat, if there is one. -/
def earlierIds (a : Account) (q : Option PeerId) (k : MediaKind) : List MsgId :=
  match q with
  | some q => (a.history.listed q k).ids
  | none => []

/-- The listed messages of the earlier chat, and then those of the peer. -/
def mergedIds (a : Account) (p : PeerId) (q : Option PeerId) (k : MediaKind) : List FullId :=
  (q.toList.flatMap fun q => (a.history.listed q k).ids.map (FullId.mk q)) ++
    (a.history.listed p k).ids.map (FullId.mk p)

private theorem mergedMedia_eq (a : Account) (p : PeerId) (q : Option PeerId) (k : MediaKind) :
    a.mergedMedia p q k =
      (a.earlierIds q k).mapM ofMigrated >>= fun earlier =>
        pure (earlier ++ (a.history.listed p k).ids.map ofMain) := by
  cases q <;> rfl

theorem mergedMedia_eq_ok {a : Account} {p : PeerId} {q : Option PeerId} {k : MediaKind}
    (fits : ∀ n ∈ a.earlierIds q k, -2 ^ 63 + historyShift ≤ n.number ∧ n.number < historyShift) :
    a.mergedMedia p q k =
      .ok ((a.earlierIds q k).map lowered ++ (a.history.listed p k).ids.map ofMain) := by
  have lowers := mapM_ofMigrated_eq_ok fits
  rw [mergedMedia_eq, lowers]
  rfl

private theorem mergedMedia_eq_error {a : Account} {q : Option PeerId} {k : MediaKind} {n : MsgId}
    (mem : n ∈ a.earlierIds q k) (low : n.number < -2 ^ 63 + historyShift) (p : PeerId) :
    a.mergedMedia p q k = .error .subtraction := by
  have stops : ofMigrated n = .error .subtraction := ofMigrated_eq_error_iff.mpr ⟨rfl, .inl low⟩
  rw [mergedMedia_eq, mapM_ofMigrated_eq_error_iff.mpr ⟨n, mem, stops⟩]
  rfl

theorem Coherent.mem_earlierIds {a : Account} (coherent : a.Coherent) {q : Option PeerId}
    {k : MediaKind} {n : MsgId} :
    n ∈ a.earlierIds q k ↔ ∃ q', q = some q' ∧ a.Shows k ⟨q', n⟩ := by
  cases q with
  | none => simp [earlierIds]
  | some q' =>
    simp only [earlierIds, Option.some.injEq, exists_eq_left']
    exact coherent.mem_listed_history

private theorem Coherent.mem_mergedIds {a : Account} (coherent : a.Coherent) {p : PeerId}
    {q : Option PeerId} {k : MediaKind} {id : FullId} :
    id ∈ a.mergedIds p q k ↔ (id.peer = p ∨ some id.peer = q) ∧ a.Shows k id := by
  have own : ∀ r : PeerId, id ∈ (a.history.listed r k).ids.map (FullId.mk r) ↔
      id.peer = r ∧ a.Shows k id := by
    intro r
    rw [List.mem_map]
    constructor
    · rintro ⟨n, hn, rfl⟩
      exact ⟨rfl, coherent.mem_listed_history.mp hn⟩
    · rintro ⟨rfl, shows⟩
      exact ⟨id.msg, coherent.mem_listed_history.mpr shows, rfl⟩
  rw [mergedIds, List.mem_append, own p]
  cases q with
  | none => simp
  | some q =>
    have earlier := own q
    simp only [Option.toList_some, List.flatMap_cons, List.flatMap_nil, List.append_nil, earlier,
      Option.some.injEq]
    rw [← or_and_right, or_comm]

private theorem map_resolve_merged {a : Account} {p : PeerId} {q : Option PeerId} {k : MediaKind}
    (own : ∀ n ∈ (a.history.listed p k).ids, 0 ≤ n.number)
    (high : ∀ n ∈ a.earlierIds q k, n.number < historyShift) :
    ((a.earlierIds q k).map lowered ++ (a.history.listed p k).ids.map ofMain).map
      (·.resolve p q) = (a.mergedIds p q k).map some := by
  rw [mergedIds, List.map_append, List.map_append]
  congr 1
  · cases q with
    | none => rfl
    | some q =>
      simp only [earlierIds, List.map_map, Option.toList_some, List.flatMap_cons, List.flatMap_nil,
        List.append_nil]
      exact List.map_congr_left fun n hn => resolve_lowered (high n hn) p q
  · simp only [List.map_map]
    exact List.map_congr_left fun n hn => resolve_ofMain (own n hn) p q

theorem merged_ascending {a : Account} {p : PeerId} {q : Option PeerId} {k : MediaKind}
    (own : ∀ n ∈ (a.history.listed p k).ids, 0 ≤ n.number)
    (high : ∀ n ∈ a.earlierIds q k, n.number < historyShift) :
    ((a.earlierIds q k).map lowered ++ (a.history.listed p k).ids.map ofMain).Pairwise
      (· < ·) := by
  have ascending : (a.earlierIds q k).Pairwise (· < ·) := by
    cases q with
    | none => exact .nil
    | some q => exact (a.history.listed q k).ascending
  refine List.pairwise_append.mpr ⟨?_, ?_, ?_⟩
  · refine List.pairwise_map.mpr (ascending.imp fun {m n} (h : m.number < n.number) => ?_)
    exact Int.sub_lt_sub_right h historyShift
  · exact List.pairwise_map.mpr (a.history.listed p k).ascending
  · intro s hs t ht
    obtain ⟨m, hm, rfl⟩ := List.mem_map.mp hs
    obtain ⟨n, hn, rfl⟩ := List.mem_map.mp ht
    have below := high m hm
    have above := own n hn
    show m.number - historyShift < n.number
    omega

private theorem mergedIds_earlier_first {a : Account} {p : PeerId} {q : Option PeerId}
    {k : MediaKind} (distinct : q ≠ some p) :
    (a.mergedIds p q k).Pairwise fun i j => some j.peer = q → some i.peer = q := by
  refine List.pairwise_append.mpr ⟨?_, ?_, ?_⟩
  · refine List.pairwise_of_forall_mem_list ?_
    intro i hi j _ _
    obtain ⟨r, hr, hi⟩ := List.mem_flatMap.mp hi
    obtain ⟨n, -, rfl⟩ := List.mem_map.mp hi
    exact (Option.mem_toList.mp hr).symm
  · refine List.pairwise_of_forall_mem_list ?_
    intro i _ j hj jq
    obtain ⟨n, -, rfl⟩ := List.mem_map.mp hj
    exact absurd jq.symm distinct
  · intro i _ j hj jq
    obtain ⟨n, -, rfl⟩ := List.mem_map.mp hj
    exact absurd jq.symm distinct

private theorem nodup_map_mk (r : PeerId) (s : MsgSet) : (s.ids.map (FullId.mk r)).Nodup := by
  refine List.pairwise_map.mpr (s.ascending.imp fun {m n} (h : m.number < n.number) same => ?_)
  obtain ⟨-, rfl⟩ := FullId.mk.inj same
  omega

private theorem nodup_mergedIds {a : Account} {p : PeerId} {q : Option PeerId} {k : MediaKind}
    (distinct : q ≠ some p) : (a.mergedIds p q k).Nodup := by
  cases q with
  | none => simpa [mergedIds] using nodup_map_mk p (a.history.listed p k)
  | some q =>
    simp only [mergedIds, Option.toList_some, List.flatMap_cons, List.flatMap_nil, List.append_nil]
    refine List.nodup_append.mpr ⟨nodup_map_mk q _, nodup_map_mk p _, ?_⟩
    intro i hi j hj same
    obtain ⟨m, -, rfl⟩ := List.mem_map.mp hi
    obtain ⟨n, -, rfl⟩ := List.mem_map.mp hj
    obtain ⟨rfl, -⟩ := FullId.mk.inj same
    exact distinct rfl

/-- While the numbers of the peer are not negative and those of the earlier chat lie within one
shift of the lowest and below the shift, the merged timeline is an ascending list of positions that
resolve to the listed messages of the two histories, each once and those of the earlier chat first.
With a number of the earlier chat that is too low to be lowered there is no timeline. -/
theorem merged_timeline_faithful (changes : List Change) (p : PeerId) (q : Option PeerId)
    (k : MediaKind) :
    let a := after changes
    (q ≠ some p →
      (∀ id, id.peer = p → a.Shows k id → 0 ≤ id.msg.number) →
      (∀ id, some id.peer = q → a.Shows k id →
        -2 ^ 63 + historyShift ≤ id.msg.number ∧ id.msg.number < historyShift) →
      ∃ (all : List TimelineId) (ids : List FullId), a.mergedMedia p q k = .ok all ∧
        all.Pairwise (· < ·) ∧
        all.map (·.resolve p q) = ids.map some ∧ ids.Nodup ∧
        (∀ id, id ∈ ids ↔ (id.peer = p ∨ some id.peer = q) ∧ a.Shows k id) ∧
        ids.Pairwise fun i j => some j.peer = q → some i.peer = q) ∧
    ((∃ id, some id.peer = q ∧ a.Shows k id ∧ id.msg.number < -2 ^ 63 + historyShift) →
      a.mergedMedia p q k = .error .subtraction) := by
  intro a
  have coherent : a.Coherent := coherent_after changes
  constructor
  · intro distinct own earlier
    have above : ∀ n ∈ (a.history.listed p k).ids, 0 ≤ n.number := by
      intro n hn
      exact own ⟨p, n⟩ rfl (coherent.mem_listed_history.mp hn)
    have fits : ∀ n ∈ a.earlierIds q k,
        -2 ^ 63 + historyShift ≤ n.number ∧ n.number < historyShift := by
      intro n hn
      obtain ⟨q', rfl, shows⟩ := coherent.mem_earlierIds.mp hn
      exact earlier ⟨q', n⟩ rfl shows
    have high : ∀ n ∈ a.earlierIds q k, n.number < historyShift := fun n hn => (fits n hn).2
    exact ⟨_, a.mergedIds p q k, mergedMedia_eq_ok fits, merged_ascending above high,
      map_resolve_merged above high, nodup_mergedIds distinct, fun _ => coherent.mem_mergedIds,
      mergedIds_earlier_first distinct⟩
  · rintro ⟨⟨q', n⟩, rfl, shows, low⟩
    exact mergedMedia_eq_error (coherent.mem_earlierIds.mpr ⟨q', rfl, shows⟩) low p

def fileOf (p : PeerId) (n : Int) : Change := .message { id := ⟨p, ⟨n⟩⟩, attachment := some .file }

theorem mem_of_shows {changes : List Change} {k : MediaKind} {id : FullId}
    (shows : (after changes).Shows k id) : ∃ m, .message m ∈ changes ∧ m.id = id := by
  obtain ⟨m, stored, -⟩ := shows
  have stored : ((after changes).timeline false).get? id = some m := stored
  obtain ⟨earlier, later, rfl, -⟩ := exists_of_get?_timeline_after stored
  exact ⟨m, by simp, ((coherent_after _).stored stored).1⟩

/-- A message of a channel with the lowest number that it may have, and two of the earlier chat with
the highest and the lowest. -/
def boundaryFiles : List Change :=
  [fileOf ⟨2⟩ 0, fileOf ⟨1⟩ (historyShift - 1), fileOf ⟨1⟩ (-2 ^ 63 + historyShift)]

/-- Histories up to the bounds are merged, and one number lower they are not. -/
theorem histories_at_the_bounds :
    (∃ (all : List TimelineId) (ids : List FullId),
      (after boundaryFiles).mergedMedia ⟨2⟩ (some ⟨1⟩) .file = .ok all ∧
      all.map (·.resolve ⟨2⟩ (some ⟨1⟩)) = ids.map some ∧ ⟨⟨1⟩, ⟨historyShift - 1⟩⟩ ∈ ids) ∧
    (after [fileOf ⟨1⟩ (-2 ^ 63 + historyShift - 1)]).mergedMedia ⟨2⟩ (some ⟨1⟩) .file =
      .error .subtraction := by
  have numbers : ∀ id, (after boundaryFiles).Shows .file id →
      id = ⟨⟨2⟩, ⟨0⟩⟩ ∨ id = ⟨⟨1⟩, ⟨historyShift - 1⟩⟩ ∨
        id = ⟨⟨1⟩, ⟨-2 ^ 63 + historyShift⟩⟩ := by
    intro id shows
    obtain ⟨m, mem, rfl⟩ := mem_of_shows shows
    simp only [boundaryFiles, fileOf, List.mem_cons, Change.message.injEq, List.not_mem_nil,
      or_false] at mem
    rcases mem with rfl | rfl | rfl <;> simp
  constructor
  · obtain ⟨all, ids, ok, -, resolves, -, listed, -⟩ :=
      (merged_timeline_faithful boundaryFiles ⟨2⟩ (some ⟨1⟩) .file).1 (by decide)
        (by
          intro id own shows
          rcases numbers id shows with rfl | rfl | rfl
          · decide
          · cases own
          · cases own)
        (by
          intro id earlier shows
          rcases numbers id shows with rfl | rfl | rfl
          · cases earlier
          · decide
          · decide)
    exact ⟨all, ids, ok, resolves, (listed _).mpr ⟨.inr rfl, _, rfl, by decide⟩⟩
  · exact (merged_timeline_faithful _ ⟨2⟩ (some ⟨1⟩) .file).2
      ⟨⟨⟨1⟩, ⟨-2 ^ 63 + historyShift - 1⟩⟩, rfl, ⟨_, rfl, by decide⟩, by decide⟩

end Account

end PeerPanel
