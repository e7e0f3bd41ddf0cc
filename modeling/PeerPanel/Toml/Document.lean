import PeerPanel.Toml.Value

/-!
From statements to the table that a document means.

A header opens a table, or one more element of an array of tables, and the assignments behind it go
there. No key is given twice, and no table is opened twice: a header may take over a table that was
only implied so far, and a key with dots may go on in a table that dots have made.
-/

set_option autoImplicit false
set_option relaxedAutoImplicit false

namespace PeerPanel.Toml

/-- A statement of a document. Names have at least one part. -/
inductive Statement
  | assign (name : List String) (v : Value)
  | header (name : List String)
  | element (name : List String)

/-- Whether a name may lead through a table. Tables between braces are complete, and dots do not
lead into a table that has a header. -/
def leadsThrough (dots : Bool) : TableForm → Bool
  | .inline => false
  | .header => !dots
  | .implied => true
  | .dotted => true

/-- Change the table that a path leads to, making the tables on the way that are not there. The
change is told how the table came to be. -/
def within (dots : Bool) (change : TableForm → Entries → Option Entries) :
    List String → TableForm → Entries → Option Entries
  | [], form, entries => change form entries
  | key :: path, _, entries =>
    match entries.lookup key with
    | none => do
      let form : TableForm := if dots then .dotted else .implied
      let inner ← within dots change path form []
      pure (entries ++ [(key, .table form inner)])
    | some (.table form inner) =>
      if leadsThrough dots form then do
        let inner ← within dots change path form inner
        pure (replace key (.table form inner) entries)
      else none
    | some (.array true items) =>
      match items.getLast? with
      | some (.table form inner) => do
        let inner ← within dots change path form inner
        pure (replace key (.array true (items.dropLast ++ [.table form inner])) entries)
      | _ => none
    | some _ => none

/-- Give a value to a key that has none. With dots in its name, the table must be one that dots have
made. -/
def assign (name : List String) (v : Value) (entries : Entries) : Option Entries := do
  let key ← name.getLast?
  let path := name.dropLast
  within true (fun form inner =>
    if (inner.lookup key).isSome || (!path.isEmpty && form ≠ .dotted) then none
    else some (inner ++ [(key, v)])) path .header entries

def assignAll (pairs : List (List String × Value)) (entries : Entries) : Option Entries :=
  pairs.foldlM (fun entries pair => assign pair.1 pair.2 entries) entries

/-- A header with the assignments behind it. -/
structure Block where
  name : List String
  isElement : Bool
  pairs : List (List String × Value)

/-- The assignments before the first header, and the blocks of a document. -/
def blocks : List Statement → List (List String × Value) × List Block
  | [] => ([], [])
  | .assign name v :: rest =>
    let (pairs, more) := blocks rest
    ((name, v) :: pairs, more)
  | .header name :: rest =>
    let (pairs, more) := blocks rest
    ([], { name, isElement := false, pairs } :: more)
  | .element name :: rest =>
    let (pairs, more) := blocks rest
    ([], { name, isElement := true, pairs } :: more)

def placeAt (b : Block) (key : String) (entries : Entries) : Option Entries :=
  match entries.lookup key, b.isElement with
  | none, false => do pure (entries ++ [(key, .table .header (← assignAll b.pairs []))])
  | none, true => do
    pure (entries ++ [(key, .array true [.table .header (← assignAll b.pairs [])])])
  | some (.table .implied inner), false => do
    pure (replace key (.table .header (← assignAll b.pairs inner)) entries)
  | some (.array true items), true => do
    let added := Value.table .header (← assignAll b.pairs [])
    pure (replace key (.array true (items ++ [added])) entries)
  | _, _ => none

def place (entries : Entries) (b : Block) : Option Entries := do
  let key ← b.name.getLast?
  within false (fun _ inner => placeAt b key inner) b.name.dropLast .header entries

def ofStatements? (statements : List Statement) : Option Entries := do
  let (pairs, more) := blocks statements
  more.foldlM place (← assignAll pairs [])

end PeerPanel.Toml
