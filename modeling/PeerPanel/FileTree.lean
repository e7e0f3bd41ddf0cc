import PeerPanel.Table

/-!
A tree of directories and files. Even its root may be removed, and is made anew like the others.

A path is kept as it is written, and leads to a place only by way of directories that are there: an
empty part and a dot stay in a directory, and two dots go back from it. A place is given by the
names on the way down to it. A file holds a text, or bytes that are no text.
-/

set_option autoImplicit false
set_option relaxedAutoImplicit false

namespace PeerPanel

/-- A path as it is written: the parts between its slashes. -/
abbrev Path := List String

/-- Whether a part of a path stays in the directory that it is met in. -/
def Path.isIdle (part : String) : Bool := part = "" || part = "."

def Path.ofText (s : String) : Path := s.splitOn "/"

/-- A path from the end of another one, which may already have its slash. -/
def Path.join (p q : Path) : Path := (if p.getLast? = some "" then p.dropLast else p) ++ q

def Path.text (p : Path) : String := "/".intercalate (p.dropWhile isIdle)

/-- Whether a path may be asked for: it holds no null character and is not too long. The way to the
root takes 16 of the 4095 bytes that there are. -/
def Path.isSound (p : Path) : Bool :=
  ("/".intercalate p).utf8ByteSize ≤ 4079 && p.all fun part => part.toList.all (· ≠ '\x00')

/-- The paths that lie around the path with given parts, which come from its end. -/
def Path.around : List String → List Path
  | [] => []
  | part :: outer =>
    if isIdle part then around outer else (outer.dropWhile isIdle).reverse :: around outer

/-- A place in the tree: the names on the way from the root. -/
abbrev Place := List String

/-- What a file holds. -/
inductive FileContent
  | text (s : String)
  | bytes
  deriving DecidableEq

def FileContent.ofBytes (b : List UInt8) : FileContent :=
  match String.fromUTF8? ⟨b.toArray⟩ with
  | some s => text s
  | none => bytes

/-- A directory or a file. -/
inductive FileNode
  | directory
  | file (content : FileContent)
  deriving DecidableEq

/-- The nodes by their places. At first there is the root alone. -/
structure FileTree where
  nodes : Table Place FileNode := Table.empty.insert [] .directory
  deriving DecidableEq

/-- Why a path leads nowhere: a part of it is not there, or there can be no such part. -/
inductive Obstacle
  | missing
  | barred
  deriving DecidableEq

namespace FileTree

def get? (t : FileTree) (l : Place) : Option FileNode := t.nodes.get? l

def put (t : FileTree) (l : Place) (n : FileNode) : FileTree := { nodes := t.nodes.insert l n }

/-- Whether a part of a path is short enough for a name. -/
def isName (part : String) : Bool := part.utf8ByteSize ≤ 255

/-- Go on from a directory to the one that a part of a path names. -/
def enter (t : FileTree) (l : Place) (part : String) : Except Obstacle Place :=
  if Path.isIdle part then .ok l
  else if part = ".." then .ok l.dropLast
  else if !isName part then .error .barred
  else
    match t.get? (l ++ [part]) with
    | some .directory => .ok (l ++ [part])
    | some (.file _) => .error .barred
    | none => .error .missing

/-- The place that a path leads to. There need not be anything yet. -/
def locate (t : FileTree) (p : Path) : Except Obstacle Place := do
  if !p.isSound then throw .barred
  if p ≠ [] && (t.get? []).isNone then throw .missing
  let l ← p.dropLast.foldlM t.enter []
  match p.getLast? with
  | some part =>
    if Path.isIdle part || part = ".." then t.enter l part
    else if isName part then pure (l ++ [part])
    else throw .barred
  | none => pure l

def find? (t : FileTree) (p : Path) : Option FileNode :=
  match t.locate p with
  | .ok l => t.get? l
  | .error _ => none

def isDirectory (t : FileTree) (p : Path) : Bool := t.find? p = some .directory

def contains (t : FileTree) (p : Path) : Bool := (t.find? p).isSome

/-- The text of the file that a path leads to, if it holds a text. -/
def read? (t : FileTree) (p : Path) : Option String :=
  match t.find? p with
  | some (.file (.text s)) => some s
  | _ => none

/-- Write a file. Its directory has to be there, and no directory in its place. Yields whether it
was written, and the tree that is left. -/
def write (t : FileTree) (p : Path) (content : FileContent) : Bool × FileTree :=
  match t.locate p with
  | .ok l => if t.get? l = some .directory then (false, t) else (true, t.put l (.file content))
  | .error _ => (false, t)

/-- Make a directory in one that is there. It may be there itself, but not as a file. Slashes at the
end of the path do not count. -/
def makeDirectory (t : FileTree) (p : Path) : Except Obstacle FileTree := do
  if !p.isSound then throw .barred
  let l ← t.locate (p.reverse.dropWhile (· = "")).reverse
  match t.get? l with
  | some .directory => pure t
  | some (.file _) => throw .barred
  | none => pure (t.put l .directory)

/-- Make the first of some directories, each of which lies in the next one. Those that are missing
are made from the outside in, and the made ones stay where one cannot be made. Yields whether the
first one is there. -/
def makeFirst (t : FileTree) : List Path → Bool × FileTree
  | [] => (true, t)
  | p :: outer =>
    match t.makeDirectory p with
    | .ok t => (true, t)
    | .error .barred => (false, t)
    | .error .missing =>
      match t.makeFirst outer with
      | (true, t) =>
        match t.makeDirectory p with
        | .ok t => (true, t)
        | .error _ => (false, t)
      | (false, t) => (false, t)

/-- Make a directory and all that it lies in, as far as that can be done. -/
def makeDirectories (t : FileTree) (p : Path) : Bool × FileTree :=
  t.makeFirst (p :: Path.around p.reverse)

/-- Remove what a path leads to with all that lies in it. A directory that the path does not end in
the name of stays, without what lies in it. -/
def remove (t : FileTree) (p : Path) : FileTree :=
  let last := (p.reverse.dropWhile (· = "")).head?
  let stays := last = some "." || last = some ".."
  match t.locate p with
  | .ok l =>
    { nodes := ⟨t.nodes.bindings.filter fun b => !l.isPrefixOf b.1 || stays && b.1 = l⟩ }
  | .error _ => t

end FileTree

end PeerPanel
