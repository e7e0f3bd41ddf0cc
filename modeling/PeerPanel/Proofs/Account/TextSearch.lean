import PeerPanel.Proofs.Account.History
import PeerPanel.Proofs.Text.Lowercase

/-!
Searching the listed messages of a peer for a text.

A message is found if the lower case of its text holds the lower case of the one searched for. The
two are put into lower case apart, so a text that stands in a message letter by letter is found as
long as the sigmas of it end words in the message as they do alone (`literal_text_found`). Where one
does not, the message can be missed (`word_cut_at_sigma_missed`).
-/

set_option autoImplicit false
set_option relaxedAutoImplicit false

namespace PeerPanel

namespace Text

private theorem matchesIn_iff (needle text : String) :
    matchesIn needle text = true ↔ lowercase needle.toList <:+: lowercase text.toList :=
  occursIn_iff _ _

private theorem matchesIn_of_sigmasAgree {needle text : String} {pre post : List Char}
    (split : text.toList = pre ++ needle.toList ++ post)
    (agree : SigmasAgree needle.toList pre.reverse post [] []) : matchesIn needle text = true := by
  have kept := (lowerWithin_eq_lowercase_iff pre needle.toList post).mpr agree
  rw [matchesIn_iff, split, ← kept]
  exact lowerWithin_infix_lowercase pre needle.toList post

end Text

namespace Account

open Text (SigmasAgree nextIsCased)

/-- The history holds a message under a number whose text holds a given one. -/
def textHolds (a : Account) (text : String) (id : FullId) : Bool :=
  (a.message? id).any fun m => Text.matchesIn text m.text

theorem searchMedia_eq_filter (a : Account) (p : PeerId) (k : MediaKind) (text : String) :
    a.searchMedia p k text =
      (a.history.listed p k).ids.filter fun n => a.textHolds text ⟨p, n⟩ := by
  refine List.filter_congr fun n _ => ?_
  unfold textHolds
  cases a.message? ⟨p, n⟩ <;> rfl

private theorem Coherent.mem_searchMedia {a : Account} (coherent : a.Coherent) {p : PeerId}
    {k : MediaKind} {n : MsgId} {text : String} :
    n ∈ a.searchMedia p k text ↔
      ∃ m, a.message? ⟨p, n⟩ = some m ∧ k ∈ m.lists ∧ Text.matchesIn text m.text = true := by
  have listed : n ∈ (a.history.listed p k).ids ↔ ∃ m, a.message? ⟨p, n⟩ = some m ∧ k ∈ m.lists :=
    coherent.listed (s := false)
  rw [searchMedia_eq_filter, List.mem_filter, listed]
  constructor
  · rintro ⟨⟨m, stored, shown⟩, holds⟩
    rw [textHolds, stored] at holds
    exact ⟨m, stored, shown, holds⟩
  · rintro ⟨m, stored, shown, holds⟩
    refine ⟨⟨m, stored, shown⟩, ?_⟩
    rw [textHolds, stored]
    exact holds

/-- A listed message is found by the texts whose lower case stands in its own. Among them is every
text that stands in the message letter by letter, if each sigma of it ends a word in the message as
it does alone; so every such text without a capital sigma, and every row of whole words. -/
theorem literal_text_found (changes : List Change) (p : PeerId) (k : MediaKind) (n : MsgId)
    (m : Message) (text : String) (pre post : List Char)
    (stored : (after changes).message? ⟨p, n⟩ = some m) (shown : k ∈ m.lists)
    (split : m.text.toList = pre ++ text.toList ++ post) :
    (n ∈ (after changes).searchMedia p k text ↔
      Text.lowercase text.toList <:+: Text.lowercase m.text.toList) ∧
    (SigmasAgree text.toList pre.reverse post [] [] →
      n ∈ (after changes).searchMedia p k text) ∧
    ('Σ' ∉ text.toList → n ∈ (after changes).searchMedia p k text) ∧
    (nextIsCased pre.reverse = false → nextIsCased post = false →
      n ∈ (after changes).searchMedia p k text) := by
  have matched : n ∈ (after changes).searchMedia p k text ↔ Text.matchesIn text m.text = true := by
    rw [(coherent_after changes).mem_searchMedia, stored]
    simp [shown]
  have found : SigmasAgree text.toList pre.reverse post [] [] →
      n ∈ (after changes).searchMedia p k text :=
    fun agree => matched.mpr (Text.matchesIn_of_sigmasAgree split agree)
  refine ⟨matched.trans (Text.matchesIn_iff text m.text), found, ?_, ?_⟩
  · intro plain
    exact found (Text.sigmasAgree_of_not_mem plain _ _ _ _)
  · intro head tail
    exact found (Text.sigmasAgree_of_adjoins_none head tail _)

def voyage : Message :=
  { id := ⟨⟨1⟩, ⟨1⟩⟩, text := "ΟΔΥΣΣΕΑΣ", attachment := some .file }

/-- The end of a word is found in it, with a sigma inside and one at the end, and so is a part
without one. -/
theorem end_of_word_found :
    ⟨1⟩ ∈ (after [.message voyage]).searchMedia ⟨1⟩ .file "ΣΕΑΣ" ∧
    ⟨1⟩ ∈ (after [.message voyage]).searchMedia ⟨1⟩ .file "ΔΥ" ∧
    ⟨1⟩ ∈ (after [.message voyage]).searchMedia ⟨1⟩ .file "ΟΔΥΣΣΕΑΣ" := by
  have stored : (after [.message voyage]).message? ⟨⟨1⟩, ⟨1⟩⟩ = some voyage := by decide +kernel
  have shown : MediaKind.file ∈ voyage.lists := by decide
  have agree : SigmasAgree "ΣΕΑΣ".toList "ΟΔΥΣ".toList.reverse [] [] [] := by
    decide +kernel
  refine ⟨?_, ?_, ?_⟩
  · exact (literal_text_found _ ⟨1⟩ .file ⟨1⟩ voyage "ΣΕΑΣ" "ΟΔΥΣ".toList [] stored shown
      (by decide +kernel)).2.1 agree
  · exact (literal_text_found _ ⟨1⟩ .file ⟨1⟩ voyage "ΔΥ" "Ο".toList "ΣΣΕΑΣ".toList stored shown
      (by decide +kernel)).2.2.1 (by decide +kernel)
  · exact (literal_text_found _ ⟨1⟩ .file ⟨1⟩ voyage "ΟΔΥΣΣΕΑΣ" [] [] stored shown
      (by decide +kernel)).2.2.2 rfl rfl

/-- The beginning of a word, cut behind a sigma, stands in a message that is not found by it: alone
the sigma ends the word, and in the message it does not. -/
theorem word_cut_at_sigma_missed :
    ¬ ∀ (changes : List Change) (p : PeerId) (k : MediaKind) (n : MsgId) (m : Message)
      (text : String), (after changes).message? ⟨p, n⟩ = some m → k ∈ m.lists →
      text.toList <:+: m.text.toList → n ∈ (after changes).searchMedia p k text := by
  intro found
  have stored : (after [.message voyage]).message? ⟨⟨1⟩, ⟨1⟩⟩ = some voyage := by decide +kernel
  have mem := found [.message voyage] ⟨1⟩ .file ⟨1⟩ voyage "ΟΔΥΣ" stored (by decide)
    ⟨[], "ΣΕΑΣ".toList, by decide +kernel⟩
  exact absurd mem (by decide +kernel)

end Account

end PeerPanel
