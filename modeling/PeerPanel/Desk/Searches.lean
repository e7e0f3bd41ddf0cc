import PeerPanel.Desk.Basic

/-!
The searches and fields of a desk.

A search is shared: it lives as long as a panel has it or a name is given to it. A field has one
owner, a name or a panel.
-/

set_option autoImplicit false
set_option relaxedAutoImplicit false

namespace PeerPanel.Desk

open Search (Moment Query Saved Debounce Finder TextField)

/-- The one of a panel, or the one that has a name. -/
inductive Ref
  | ofPanel (panel : String)
  | named (name : String)
  deriving DecidableEq

def mounted (name : String) : Act Mounted := do
  orMissing .panel (((← get).seats.get? name).bind (·.mounted?))

def searchMade? (d : Desk) (made : Nat) : Option Debounce :=
  match d.searches.get? made with
  | some s => some s
  | none => do
    let m ← (d.seats.values.filterMap (·.mounted?)).find? (·.built = made)
    m.panel.search

/-- Change the search that was made in a step, wherever it belongs. -/
def mapSearch (d : Desk) (made : Nat) (f : Debounce → Debounce) : Desk :=
  { d with
    searches := d.searches.modify made f
    seats := d.seats.mapValues (·.mapSearch made f) }

def search (r : Ref) : Act (Nat × Debounce) := do
  match r with
  | .ofPanel panel => do
    let m ← mounted panel
    pure (m.built, ← orMissing .search m.panel.search)
  | .named name => do
    let made ← orMissing .search ((← get).searchNames.get? name)
    pure (made, ← orMissing .search ((← get).searchMade? made))

def changeSearch (r : Ref) (f : Account → Moment → Debounce → Debounce) : Act Debounce := do
  let (made, s) ← search r
  let s := f (← get).account (← now) s
  modify (·.mapSearch made fun _ => s)
  pure s

/-- Let go of a search that belongs to no panel, unless it has a name. -/
def release (d : Desk) (made : Nat) : Desk :=
  match d.searches.get? made with
  | some s =>
    if d.searchNames.values.contains made then d
    else { d with searches := d.searches.erase made }.mapStreams
      (Stream.leaveText (.search made) s.appliedText)
  | none => d

/-- A panel parts with its search, which lives on if it has a name. -/
def part (d : Desk) (made : Nat) : Option Debounce → Desk
  | some s => { d with searches := d.searches.insert made s }.release made
  | none => d

/-- Give a name to a search; the one that had the name loses it. -/
def nameSearch (name : String) (made : Nat) : Act Unit :=
  modify fun d =>
    let named := { d with searchNames := d.searchNames.insert name made }
    match d.searchNames.get? name with
    | some old => named.release old
    | none => named

def makeSearch (name : String) (delay : Nat) (s : Saved) : Act Debounce := do
  let d ← get
  let made : Debounce := .ofSaved d.account delay s
  set { d with searches := d.searches.insert d.step made }
  nameSearch name d.step
  pure made

/-- Take a name from its search, and say whether it had one. -/
def dropSearch (name : String) : Act Bool := do
  let d ← get
  match d.searchNames.get? name with
  | some made =>
    set ({ d with searchNames := d.searchNames.erase name }.release made)
    pure true
  | none => pure false

def keepSearch (panel name : String) : Act Unit := do
  let (made, _) ← search (.ofPanel panel)
  nameSearch name made

def finder (name : String) : Act Finder := do orMissing .finder ((← get).finders.get? name)

/-- Put a finder under a name, and hand back what it would put aside. -/
def setFinder (name : String) (f : Finder) : Act Saved := do
  modify fun d => { d with finders := d.finders.insert name f }
  pure f.save

/-- Note what the listener of a field of its own was told. A listener is named by a tag, which goes
before the text. -/
def OwnField.hear (f : OwnField) (call : Option (Search.Call String)) : OwnField :=
  { f with heard := f.heard ++ (call.map fun c => c.1 ++ c.2).toList }

def ownField (name : String) : Act OwnField := do orMissing .field ((← get).fields.get? name)

def setOwnField (name : String) (f : OwnField) : Act Unit :=
  modify fun d => { d with fields := d.fields.insert name f }

def leaveField (d : Desk) : Option OwnField → Desk
  | some f => d.mapStreams (Stream.leaveText (.field f.made) f.field.text)
  | none => d

/-- Make a field, with a listener that hears the text or with none. -/
def makeField (name text : String) (listens : Bool) : Act Unit := do
  let d ← get
  let field : TextField String := .ofText text
  let made : OwnField :=
    if listens then
      let (field, call) := field.listen ""
      { made := d.step, field : OwnField }.hear (some call)
    else { made := d.step, field }
  setOwnField name made
  modify (·.leaveField (d.fields.get? name))

/-- Set the listener of a field, which is told the present text. -/
def listenField (name tag : String) : Act Unit := do
  let f ← ownField name
  let (field, call) := f.field.listen tag
  setOwnField name ({ f with field }.hear (some call))

def editOwnField (name text : String) : Act String := do
  let f ← ownField name
  let (field, call) := f.field.edit text
  setOwnField name ({ f with field }.hear call)
  pure field.value

/-- What the listener of a field has been told since it was last asked. -/
def takeHeard (name : String) : Act (List String) := do
  let f ← ownField name
  setOwnField name { f with heard := [] }
  pure f.heard

/-- Drop a field of its own, and say whether there was one. -/
def dropField (name : String) : Act Bool := do
  let d ← get
  match d.fields.get? name with
  | some f =>
    set ({ d with fields := d.fields.erase name }.leaveField (some f))
    pure true
  | none => pure false

end PeerPanel.Desk
