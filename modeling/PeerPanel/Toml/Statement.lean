import PeerPanel.Toml.Document
import PeerPanel.Toml.Quoted
import PeerPanel.Toml.Scalar

/-!
From a text to the statements of a document.

A document is a sequence of lines: headers and assignments, with blank lines and comments between
them. Values may nest to a depth of 79 brackets, and a name may have 79 parts. Every reader takes
the characters that are left and yields what it has read with the characters behind it.
-/

set_option autoImplicit false
set_option relaxedAutoImplicit false

namespace PeerPanel.Toml

def isBlank (c : Char) : Bool := c = ' ' || c = '\t'

/-- What stands behind the blanks. -/
def skipBlanks (s : List Char) : List Char := s.dropWhile isBlank

/-- What stands behind a comment, if there is one. A control character ends it. -/
def skipComment : List Char → List Char
  | '#' :: s => s.dropWhile isPlain
  | s => s

def lineEnd? : List Char → Option (List Char)
  | '\n' :: s => some s
  | '\r' :: '\n' :: s => some s
  | _ => none

/-- What stands behind the rest of a line in which only a comment may follow. -/
def finishLine (s : List Char) : Option (List Char) :=
  match skipComment (skipBlanks s) with
  | [] => some []
  | s => lineEnd? s

/-- What stands behind blanks, line ends and comments, inside an array. -/
def skipFill (inComment : Bool) : List Char → Option (List Char)
  | [] => some []
  | '\n' :: s => skipFill false s
  | '\r' :: '\n' :: s => skipFill false s
  | c :: s =>
    if inComment then if isPlain c then skipFill true s else none
    else if isBlank c then skipFill false s
    else if c = '#' then skipFill true s
    else some (c :: s)

def isKeyChar (c : Char) : Bool := c.isAlphanum || c = '_' || c = '-'

def readPart (s : List Char) : Option (String × List Char) :=
  match s with
  | '"' :: _ | '\x27' :: _ => (decodeOneLine s).map fun (k, rest) => (String.ofList k, rest)
  | _ =>
    let part := s.takeWhile isKeyChar
    if part = [] then none else some (String.ofList part, s.dropWhile isKeyChar)

/-- The parts of a name that dots separate, with blanks around them. -/
def readParts : Nat → List Char → Option (List String × List Char)
  | 0, _ => none
  | fuel + 1, s => do
    let (part, s) ← readPart (skipBlanks s)
    match skipBlanks s with
    | '.' :: s => do
      let (more, s) ← readParts fuel s
      pure (part :: more, s)
    | s => pure ([part], s)

/-- A name of at most 79 parts. -/
def readName (s : List Char) : Option (List String × List Char) := readParts 79 s

mutual

/-- Read a value; `depth` is the number of brackets that may still be opened. -/
def readValue : (fuel depth : Nat) → List Char → Option (Value × List Char)
  | 0, _, _ => none
  | fuel + 1, depth, s =>
    match s with
    | '"' :: _ | '\x27' :: _ => (decode s).map fun (t, rest) => (.string (String.ofList t), rest)
    | '[' :: s =>
      match depth with
      | 0 => none
      | depth + 1 => do
        match ← skipFill false s with
        | ']' :: s => pure (.array false [], s)
        | s => do
          let (items, s) ← readItems fuel depth s
          pure (.array false items, s)
    | '\x7b' :: s =>
      match depth with
      | 0 => none
      | depth + 1 =>
        match skipBlanks s with
        | '\x7d' :: s => some (.table .inline [], s)
        | s => do
          let (pairs, s) ← readPairs fuel depth s
          pure (.table .inline (← assignAll pairs []), s)
    | s => readScalar s

/-- Read the items of an array, of which there is at least one, and its end. -/
def readItems : (fuel depth : Nat) → List Char → Option (List Value × List Char)
  | 0, _, _ => none
  | fuel + 1, depth, s => do
    let (v, s) ← readValue fuel depth s
    match ← skipFill false s with
    | ',' :: s =>
      match ← skipFill false s with
      | ']' :: s => pure ([v], s)
      | s => do
        let (vs, s) ← readItems fuel depth s
        pure (v :: vs, s)
    | ']' :: s => pure ([v], s)
    | _ => none

/-- Read the assignments between braces, of which there is at least one, and their end. -/
def readPairs : (fuel depth : Nat) → List Char → Option (List (List String × Value) × List Char)
  | 0, _, _ => none
  | fuel + 1, depth, s => do
    let (name, s) ← readName s
    let s ← takeChar '=' s
    let (v, s) ← readValue fuel depth (skipBlanks s)
    match skipBlanks s with
    | ',' :: s => do
      let (more, s) ← readPairs fuel depth s
      pure ((name, v) :: more, s)
    | '\x7d' :: s => pure ([(name, v)], s)
    | _ => none

end

/-- Read a value of a text: every step takes a character or more. -/
def readTopValue (s : List Char) : Option (Value × List Char) := readValue (2 * s.length + 1) 79 s

def readStatement (s : List Char) : Option (Statement × List Char) :=
  match s with
  | '[' :: '[' :: s => do
    let (name, s) ← readName s
    let s ← takeChar ']' s
    let s ← takeChar ']' s
    pure (.element name, ← finishLine s)
  | '[' :: s => do
    let (name, s) ← readName s
    let s ← takeChar ']' s
    pure (.header name, ← finishLine s)
  | s => do
    let (name, s) ← readName s
    let s ← takeChar '=' s
    let (v, s) ← readTopValue (skipBlanks s)
    pure (.assign name v, ← finishLine s)

def readStatements : Nat → List Char → Option (List Statement)
  | 0, _ => none
  | fuel + 1, s =>
    match skipBlanks s with
    | [] => some []
    | '#' :: s => do readStatements fuel (← finishLine ('#' :: s))
    | '\n' :: s => readStatements fuel s
    | '\r' :: s => do readStatements fuel (← takeChar '\n' s)
    | s => do
      let (statement, s) ← readStatement s
      pure (statement :: (← readStatements fuel s))

/-- The statements of a text. A mark of the byte order may stand before them. -/
def statements? (text : List Char) : Option (List Statement) :=
  let s := match text with
    | '\ufeff' :: s => s
    | s => s
  readStatements (s.length + 1) s

end PeerPanel.Toml
