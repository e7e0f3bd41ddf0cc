import Mathlib.Data.List.Induction
import PeerPanel.Config.Directory
import PeerPanel.Proofs.Config.RoundTrip
import PeerPanel.Proofs.FileTree

/-!
The configuration that a directory keeps.

A directory may be opened any number of times, by different paths. Whatever is saved through them,
the file holds the text of the configuration that was saved last (`ConfigStore.Holds`), so this is
the one that is loaded: `ConfigStore.last_saved_is_loaded`.
-/

set_option autoImplicit false
set_option relaxedAutoImplicit false

namespace PeerPanel

namespace ConfigDirectory

/-- The place of the file in a directory. -/
def fileIn (l : Place) : Place := l ++ ["config.toml"]

variable {t u : FileTree} {d : ConfigDirectory} {c : Config} {l : Place} {path : Path}

private theorem locate_file (leads : t.LeadsTo d.path l) (sound : d.file.isSound = true) :
    t.locate d.file = .ok (fileIn l) :=
  leads.locate_join sound (by decide) (by decide) (by decide)

private theorem load_eq (found : t.locate d.file = .ok (fileIn l)) :
    d.load t =
      match t.get? (fileIn l) with
      | none => .ok {}
      | some (.file (.text text)) =>
        match Config.parse? text with
        | some c => .ok c
        | none => .error .parse
      | some _ => .error .io := by
  have find : t.find? d.file = t.get? (fileIn l) := by rw [FileTree.find?, found]
  rw [load, FileTree.contains, FileTree.read?, find]
  rcases t.get? (fileIn l) with _ | _ | _ | _ <;> rfl

/-- What a save does: it writes the text of the configuration, or it fails and leaves the tree. -/
inductive Saved (d : ConfigDirectory) (t : FileTree) (c : Config) :
    Except ConfigError Unit × FileTree → Prop
  | written {text : String} {m : Place} : c.render = .ok text → t.locate d.file = .ok m →
      t.get? m ≠ some .directory → Saved d t c (.ok (), t.put m (.file (.text text)))
  | unrendered {e : ConfigError} : c.render = .error e → Saved d t c (.error e, t)
  | barred {text : String} : c.render = .ok text →
      (∀ m, t.locate d.file = .ok m → t.get? m = some .directory) → Saved d t c (.error .io, t)

private theorem saved (d : ConfigDirectory) (t : FileTree) (c : Config) :
    d.Saved t c (d.save t c) := by
  unfold save
  cases rendered : c.render with
  | error e => exact .unrendered rendered
  | ok text =>
    unfold FileTree.write
    cases located : t.locate d.file with
    | error e => exact .barred rendered fun m found => by rw [located] at found; cases found
    | ok m =>
      by_cases directory : t.get? m = some .directory
      · simp only [directory, if_true]
        refine .barred rendered fun n found => ?_
        rw [located] at found
        exact Except.ok.inj found ▸ directory
      · simp only [directory, if_false]
        exact .written rendered located directory

private theorem fst_save_eq_serialize_iff :
    (d.save t c).1 = .error .serialize ↔ 9223372036854775807 < c.search.delayMs := by
  rw [← Config.render_eq_serialize_iff]
  have saved := d.saved t c
  generalize d.save t c = result at saved ⊢
  cases saved with
  | written rendered => simp [rendered]
  | unrendered rendered => simp [rendered]
  | barred rendered => simp [rendered]

private theorem snd_save_of_error {e : ConfigError} (fails : (d.save t c).1 = .error e) :
    (d.save t c).2 = t := by
  have saved := d.saved t c
  generalize d.save t c = result at saved fails ⊢
  cases saved with
  | written => cases fails
  | unrendered => rfl
  | barred => rfl

private theorem isDirectory_file (found : t.locate d.file = .ok (fileIn l)) :
    t.isDirectory d.file = true ↔ t.get? (fileIn l) = some .directory := by
  rw [FileTree.isDirectory, FileTree.find?, found, decide_eq_true_eq]

private theorem fst_save_eq_ok_iff (found : t.locate d.file = .ok (fileIn l))
    (free : ¬ t.isDirectory d.file) :
    (d.save t c).1 = .ok () ↔ ∃ text, c.render = .ok text := by
  rw [isDirectory_file found] at free
  have saved := d.saved t c
  generalize d.save t c = result at saved ⊢
  cases saved with
  | written rendered => simp [rendered]
  | unrendered rendered => simp [rendered]
  | barred _ directory => exact absurd (directory _ found) free

private theorem addsDirectories_openIn (t : FileTree) (path : Path) :
    t.AddsDirectories (openIn t path).2 := by
  have made := t.addsDirectories_makeFirst (path :: Path.around path.reverse)
  unfold openIn FileTree.makeDirectories
  rcases makes : t.makeFirst (path :: Path.around path.reverse) with ⟨_ | _, u⟩
  · rw [makes] at made
    exact made
  · rw [makes] at made
    exact made

private theorem openIn_eq_ok (opens : openIn t path = (.ok d, u)) :
    d.path = path ∧ ∃ l, u.LeadsTo path l := by
  unfold openIn at opens
  rcases made : t.makeDirectories path with ⟨_ | _, v⟩
  · rw [made] at opens
    cases opens
  · rw [made] at opens
    cases opens
    exact ⟨rfl, FileTree.exists_leadsTo_of_makeDirectories made⟩

end ConfigDirectory

/-- A tree, the directories that were opened in it, and the configurations that were saved through
them, the latest last. -/
structure ConfigStore where
  tree : FileTree
  opened : List ConfigDirectory := []
  saved : List Config := []

inductive ConfigStore.Call
  | opening (path : Path)
  | saving (d : ConfigDirectory) (c : Config)

namespace ConfigStore

open ConfigDirectory (fileIn)

/-- Make a call. Nothing is saved through a directory that is not open. -/
def play (s : ConfigStore) : Call → ConfigStore
  | .opening path =>
    match ConfigDirectory.openIn s.tree path with
    | (.ok d, tree) => { s with tree, opened := s.opened ++ [d] }
    | (.error _, tree) => { s with tree }
  | .saving d c =>
    if d ∈ s.opened then
      match d.save s.tree c with
      | (.ok (), tree) => { s with tree, saved := s.saved ++ [c] }
      | (.error _, tree) => { s with tree }
    else s

def run (s : ConfigStore) (calls : List Call) : ConfigStore := calls.foldl play s

/-- All open directories are the one at a place. -/
def Shares (l : Place) (s : ConfigStore) : Prop := ∀ d ∈ s.opened, s.tree.locate d.path = .ok l

/-- The file holds the text of the configuration that was saved last. Before one is saved, there is
no file. -/
def Holds (l : Place) (s : ConfigStore) : Prop :=
  match s.saved.getLast? with
  | some c => ∃ text, c.render = .ok text ∧ s.tree.get? (fileIn l) = some (.file (.text text))
  | none => s.tree.get? (fileIn l) = none ∨ s.tree.get? (fileIn l) = some .directory

/-- What a call makes of a store. -/
inductive Played (s : ConfigStore) : ConfigStore → Prop
  | opened {d : ConfigDirectory} {tree : FileTree} {m : Place} : s.tree.AddsDirectories tree →
      tree.LeadsTo d.path m → Played s { s with tree, opened := s.opened ++ [d] }
  | unopened {tree : FileTree} : s.tree.AddsDirectories tree → Played s { s with tree }
  | saved {d : ConfigDirectory} {c : Config} {text : String} {m : Place} : d ∈ s.opened →
      c.render = .ok text → s.tree.locate d.file = .ok m → s.tree.get? m ≠ some .directory →
      Played s { s with tree := s.tree.put m (.file (.text text)), saved := s.saved ++ [c] }
  | unchanged : Played s s

variable {s t : ConfigStore} {l : Place}

private theorem played (s : ConfigStore) (c : Call) : s.Played (s.play c) := by
  cases c with
  | opening path =>
    have added := ConfigDirectory.addsDirectories_openIn s.tree path
    rw [play]
    rcases opens : ConfigDirectory.openIn s.tree path with ⟨_ | d, tree⟩
    · rw [opens] at added
      exact .unopened added
    · rw [opens] at added
      obtain ⟨rfl, m, leads⟩ := ConfigDirectory.openIn_eq_ok opens
      exact .opened added leads
  | saving d c =>
    rw [play]
    split
    · next isOpen =>
      have saved := d.saved s.tree c
      generalize d.save s.tree c = result at saved ⊢
      cases saved with
      | written rendered found free => exact .saved isOpen rendered found free
      | unrendered => exact .unchanged
      | barred => exact .unchanged
    · exact .unchanged

private theorem Played.within (h : s.Played t) : s.tree.Within t.tree := by
  cases h with
  | opened added _ => exact added.within
  | unopened added => exact added.within
  | saved _ _ _ free => exact FileTree.within_put_file s.tree _ free
  | unchanged => exact fun _ => ⟨id, id⟩

private theorem Played.opened_subset (h : s.Played t) : s.opened ⊆ t.opened := by
  cases h with
  | opened _ _ => exact List.subset_append_left _ _
  | unopened _ => exact List.Subset.refl _
  | saved _ _ _ _ => exact List.Subset.refl _
  | unchanged => exact List.Subset.refl _

/-- Every open directory is there. -/
def Stands (s : ConfigStore) : Prop := ∀ d ∈ s.opened, ∃ m, s.tree.LeadsTo d.path m

private theorem Stands.played (h : Stands s) (played : s.Played t) : Stands t := by
  have kept : ∀ d ∈ s.opened, ∃ m, t.tree.LeadsTo d.path m := fun d isOpen =>
    (h d isOpen).imp fun m leads => leads.mono played.within
  cases played with
  | @opened d tree m added leads =>
    intro e isOpen
    rcases List.mem_append.mp isOpen with old | new
    · exact kept e old
    · rw [List.mem_singleton.mp new]
      exact ⟨m, leads⟩
  | unopened _ => exact kept
  | saved _ _ _ _ => exact kept
  | unchanged => exact kept

private theorem Shares.before (h : Shares l t) (stands : Stands s) (played : s.Played t) :
    Shares l s := by
  intro d isOpen
  obtain ⟨m, leads⟩ := stands d isOpen
  have located := h d (played.opened_subset isOpen)
  have same : m = l := Except.ok.inj ((leads.mono played.within).1.symm.trans located)
  exact same ▸ leads.1

private theorem Shares.locate_file (h : Shares l s) (stands : Stands s) {d : ConfigDirectory}
    (isOpen : d ∈ s.opened) (sound : d.file.isSound = true) :
    s.tree.locate d.file = .ok (fileIn l) := by
  obtain ⟨m, leads⟩ := stands d isOpen
  have same : m = l := Except.ok.inj (leads.1.symm.trans (h d isOpen))
  exact ConfigDirectory.locate_file (same ▸ leads) sound

private theorem Holds.addsDirectories (h : Holds l s) {tree : FileTree}
    (added : s.tree.AddsDirectories tree) (opened : List ConfigDirectory) :
    Holds l { s with tree, opened } := by
  unfold Holds at h ⊢
  cases last : s.saved.getLast? with
  | none =>
    simp only [last] at h ⊢
    rcases added (fileIn l) with same | ⟨-, made⟩
    · rwa [same]
    · exact .inr made
  | some c =>
    simp only [last] at h ⊢
    obtain ⟨text, written, stored⟩ := h
    rcases added (fileIn l) with same | ⟨none, -⟩
    · exact ⟨text, written, same.trans stored⟩
    · rw [stored] at none
      cases none

private theorem Holds.played (h : Holds l s) (shares : Shares l s) (stands : Stands s)
    (played : s.Played t) : Holds l t := by
  cases played with
  | opened added _ => exact h.addsDirectories added _
  | unopened added => exact h.addsDirectories added _
  | unchanged => exact h
  | @saved d c text m isOpen written found free =>
    have sound := FileTree.isSound_of_locate_eq_ok found
    have here : m = fileIn l :=
      Except.ok.inj (found.symm.trans (shares.locate_file stands isOpen sound))
    unfold Holds
    rw [List.getLast?_concat]
    exact ⟨text, written, by rw [FileTree.get?_put, here, if_pos rfl]⟩

/-- The configuration that is loaded is the last one that was saved. -/
private theorem Holds.load_eq (h : Holds l s) {d : ConfigDirectory}
    (found : s.tree.locate d.file = .ok (fileIn l)) :
    d.load s.tree =
      if s.tree.isDirectory d.file then .error .io else .ok (s.saved.getLast?.getD {}) := by
  have isDirectory := ConfigDirectory.isDirectory_file found
  rw [ConfigDirectory.load_eq found]
  unfold Holds at h
  cases last : s.saved.getLast? with
  | none =>
    simp only [last] at h
    rcases h with none | directory
    · rw [none] at isDirectory ⊢
      simp [isDirectory]
    · rw [directory] at isDirectory ⊢
      simp [isDirectory]
  | some c =>
    simp only [last] at h
    obtain ⟨text, written, stored⟩ := h
    rw [stored] at isDirectory ⊢
    simp [isDirectory, Config.parse?_of_render_eq_ok written]

private theorem Holds.saved_eq_nil (h : Holds l s)
    (directory : s.tree.get? (fileIn l) = some .directory) :
    s.saved = [] := by
  rcases List.eq_nil_or_concat' s.saved with none | ⟨saved, c, split⟩
  · exact none
  · unfold Holds at h
    rw [split, List.getLast?_concat] at h
    obtain ⟨text, -, stored⟩ := h
    rw [directory] at stored
    cases stored

private theorem play_of_save_error {d : ConfigDirectory} {c : Config} {e : ConfigError}
    (fails : (d.save s.tree c).1 = .error e) : s.play (.saving d c) = s := by
  have failed : d.save s.tree c = (.error e, s.tree) :=
    Prod.ext fails (ConfigDirectory.snd_save_of_error fails)
  rw [play, failed]
  exact ite_self s

private theorem stands_run (calls : List Call) (h : Stands s) : Stands (s.run calls) := by
  induction calls generalizing s with
  | nil => exact h
  | cons c later ih => exact ih (h.played (s.played c))

private theorem holds_run {calls : List Call} (h : Holds l s) (stands : Stands s)
    (shares : Shares l (s.run calls)) : Holds l (s.run calls) := by
  induction calls using List.reverseRecOn with
  | nil => exact h
  | append_singleton calls c ih =>
    have last : s.run (calls ++ [c]) = (s.run calls).play c := by simp [run]
    rw [last] at shares ⊢
    have played := (s.run calls).played c
    have before := shares.before (stands_run calls stands) played
    exact (ih before).played before (stands_run calls stands) played

/-- Through whatever paths one directory was opened, the configuration that was saved last is loaded
from it, and the defaults before any is. Saving fails where there is no text for the configuration,
or a directory in place of its file, and then it leaves the tree as it was. -/
theorem last_saved_is_loaded {t : FileTree} {l : Place} {calls : List Call}
    (unwritten : t.get? (fileIn l) = none)
    (shared : Shares l (({ tree := t } : ConfigStore).run calls)) :
    let s := ({ tree := t } : ConfigStore).run calls
    ∀ d ∈ s.opened, d.file.isSound →
      d.load s.tree =
          (if s.tree.isDirectory d.file then .error .io else .ok (s.saved.getLast?.getD {})) ∧
        (s.tree.isDirectory d.file → s.saved = []) ∧
        ∀ c,
          ((d.save s.tree c).1 = .error .serialize ↔ 9223372036854775807 < c.search.delayMs) ∧
          (∀ e, (d.save s.tree c).1 = .error e →
            (d.save s.tree c).2 = s.tree ∧ s.play (.saving d c) = s) ∧
          (¬ s.tree.isDirectory d.file →
            ((d.save s.tree c).1 = .ok () ↔ c.search.delayMs ≤ 9223372036854775807 ∧
              ∀ quote ∈ ['"', Toml.apostrophe],
                ¬ List.replicate 256 quote <:+: c.log.filter.toList)) := by
  intro s d isOpen sound
  have stands : Stands { tree := t } := nofun
  have holds : Holds l s := holds_run (Or.inl unwritten) stands shared
  have found : s.tree.locate d.file = .ok (fileIn l) :=
    shared.locate_file (stands_run calls stands) isOpen sound
  refine ⟨holds.load_eq found, fun directory => ?_,
    fun c => ⟨?_, fun e fails => ?_, fun free => ?_⟩⟩
  · exact holds.saved_eq_nil ((ConfigDirectory.isDirectory_file found).mp directory)
  · exact ConfigDirectory.fst_save_eq_serialize_iff
  · exact ⟨ConfigDirectory.snd_save_of_error fails, play_of_save_error fails⟩
  · exact (ConfigDirectory.fst_save_eq_ok_iff found free).trans Config.exists_render_eq_ok_iff

/-- A directory that is opened by two paths. The second configuration has no text. -/
def twoPaths : List Call :=
  [.opening ["panel"], .saving ⟨["panel"]⟩ { search := { delayMs := 50 } }, .opening ["panel", "."],
    .saving ⟨["panel", "."]⟩ { search := { delayMs := 9223372036854775808 } }]

theorem twoPaths_loaded :
    (⟨["panel", "."]⟩ : ConfigDirectory).load (({ tree := {} } : ConfigStore).run twoPaths).tree =
      .ok { search := { delayMs := 50 } } := by
  let s := ({ tree := {} } : ConfigStore).run twoPaths
  let d : ConfigDirectory := ⟨["panel", "."]⟩
  have unwritten : ({} : FileTree).get? (fileIn ["panel"]) = none := by decide
  have shared : Shares ["panel"] s := by
    unfold Shares
    decide +kernel
  have isOpen : d ∈ s.opened := by decide +kernel
  have sound : d.file.isSound = true := by decide +kernel
  have free : s.tree.isDirectory d.file = false := by decide +kernel
  have last : s.saved = [{ search := { delayMs := 50 } }] := by decide +kernel
  have loaded := (last_saved_is_loaded unwritten shared d isOpen sound).1
  rw [free, last] at loaded
  exact loaded

end ConfigStore

end PeerPanel
