/-!
Quoted texts of the TOML format: how they are written and how they are read.

A text is written in the first of five forms that can hold it: between double quotes, between
apostrophes, between three of either over several lines, and last with every special character
escaped. Reading knows four kinds of quotes, follows the rules of TOML 1.0, and yields the text
together with what stands behind the closing quotes.
-/

set_option autoImplicit false
set_option relaxedAutoImplicit false

namespace PeerPanel.Toml

/-- The apostrophe, which encloses texts without escapes. -/
def apostrophe : Char := '\x27'

/-- A control character that only an escape can stand for: any but tab and line feed. -/
def isControl (c : Char) : Bool :=
  (c.toNat ≤ 0x1F && c ≠ '\t' && c ≠ '\n') || c.toNat = 0x7F

/-- A character that stands for itself in every kind of quotes but may be a quote: a tab, or one
that is no control character and ends no line. -/
def isPlain (c : Char) : Bool := c = '\t' || (0x20 ≤ c.toNat && c.toNat ≠ 0x7F)

def longestRun (c : Char) (s : List Char) : Nat :=
  (s.foldl (fun (run, best) x =>
    if x = c then (run + 1, max best (run + 1)) else (0, best)) (0, 0)).2

/-- Whether the quotes in a row of a text can be counted in 8 bits, as they are to choose among the
ways to enclose it. -/
def isCountable (s : List Char) : Bool := longestRun '"' s ≤ 255 && longestRun apostrophe s ≤ 255

/-- The ways to enclose a text. -/
inductive Quotes
  | double | single | tripleDouble | tripleSingle
  deriving DecidableEq

def quotesFor (s : List Char) : Quotes :=
  let clean := !s.any isControl
  let oneLine := !s.contains '\n'
  let straight := !s.contains '\\'
  if clean && straight && oneLine && !s.contains '"' then .double
  else if clean && oneLine && !s.contains apostrophe then .single
  else if clean && straight && longestRun '"' s ≤ 2 then .tripleDouble
  else if clean && longestRun apostrophe s ≤ 2 then .tripleSingle
  else if oneLine then .double
  else .tripleDouble

def hexDigit (n : Nat) : Char :=
  if n < 10 then Char.ofNat (0x30 + n) else Char.ofNat (0x37 + n)

/-- What stands for a character between double quotes, where a quote is no longer a question. -/
def escaped (c : Char) : List Char :=
  if c = '\x08' then ['\\', 'b']
  else if c = '\t' then ['\\', 't']
  else if c = '\x0c' then ['\\', 'f']
  else if c = '\r' then ['\\', 'r']
  else if c = '\\' then ['\\', '\\']
  else if isControl c then
    ['\\', 'u', '0', '0', hexDigit (c.toNat / 16), hexDigit (c.toNat % 16)]
  else [c]

/-- The body of a text between two quotes, on one line. -/
def encodeLine : List Char → List Char
  | [] => []
  | c :: rest =>
    (if c = '"' then ['\\', '"'] else if c = '\n' then ['\\', 'n'] else escaped c) ++
      encodeLine rest

/-- The body of a text between triple quotes: line feeds stay, and of the quotes in a row every
third is escaped. The number counts the quotes just written. -/
def encodeLines : Nat → List Char → List Char
  | _, [] => []
  | run, c :: rest =>
    if c = '"' then
      if run = 2 then ['\\', '"'] ++ encodeLines 0 rest else '"' :: encodeLines (run + 1) rest
    else if c = '\n' then '\n' :: encodeLines 0 rest
    else escaped c ++ encodeLines 0 rest

/-- The first line feed of a text over several lines, which is not part of it. -/
def opening (s : List Char) : List Char := if s.contains '\n' then ['\n'] else []

def encodeIn : Quotes → List Char → List Char
  | .double, s => ['"'] ++ encodeLine s ++ ['"']
  | .single, s => [apostrophe] ++ s ++ [apostrophe]
  | .tripleDouble, s => ['"', '"', '"'] ++ opening s ++ encodeLines 0 s ++ ['"', '"', '"']
  | .tripleSingle, s =>
    [apostrophe, apostrophe, apostrophe] ++ opening s ++ s ++
      [apostrophe, apostrophe, apostrophe]

def encode (s : List Char) : List Char := encodeIn (quotesFor s) s

def hexValue? (c : Char) : Option Nat :=
  if c.isDigit then some (c.toNat - 0x30)
  else if 'a' ≤ c ∧ c ≤ 'f' then some (c.toNat - 0x57)
  else if 'A' ≤ c ∧ c ≤ 'F' then some (c.toNat - 0x37)
  else none

/-- The character with a number that is given in digits to the base of sixteen. -/
def hexChar? (digits : List Char) : Option Char := do
  let n ← digits.foldlM (fun n c => (hexValue? c).map (16 * n + ·)) 0
  if n.isValidChar then some (Char.ofNat n) else none

/-- The character that a letter stands for behind a backslash. -/
def unescape? (c : Char) : Option Char :=
  if c = 'b' then some '\x08'
  else if c = 't' then some '\t'
  else if c = 'n' then some '\n'
  else if c = 'f' then some '\x0c'
  else if c = 'r' then some '\r'
  else if c = '"' then some '"'
  else if c = '\\' then some '\\'
  else none

/-- Put a character in front of a text that has been read. -/
def push (c : Char) (r : Option (List Char × List Char)) : Option (List Char × List Char) :=
  r.map fun (s, rest) => (c :: s, rest)

/-- Put a character, if there is one, in front of a text that has been read. -/
def push? (c : Option Char) (r : Option (List Char × List Char)) :
    Option (List Char × List Char) :=
  c.bind fun c => push c r

/-- Read behind a double quote, up to the closing one on the same line. -/
def decodeLine : List Char → Option (List Char × List Char)
  | [] => none
  | '"' :: rest => some ([], rest)
  | '\\' :: 'u' :: a :: b :: c :: d :: rest => push? (hexChar? [a, b, c, d]) (decodeLine rest)
  | '\\' :: 'U' :: a :: b :: c :: d :: e :: f :: g :: h :: rest =>
    push? (hexChar? [a, b, c, d, e, f, g, h]) (decodeLine rest)
  | '\\' :: c :: rest => push? (unescape? c) (decodeLine rest)
  | c :: rest => if isPlain c then push c (decodeLine rest) else none

/-- Read behind an apostrophe, up to the closing one on the same line. -/
def decodeLiteral : List Char → Option (List Char × List Char)
  | [] => none
  | c :: rest =>
    if c = apostrophe then some ([], rest)
    else if isPlain c then push c (decodeLiteral rest)
    else none

def endsLine (s : List Char) : Bool :=
  match s.dropWhile fun c => c = ' ' || c = '\t' with
  | '\n' :: _ => true
  | '\r' :: '\n' :: _ => true
  | _ => false

/-- Read behind three double quotes. A backslash at the end of a line joins it to the next
character that is no blank; `joining` tells that this one is still sought. Up to two quotes may
stand before the closing three. -/
def decodeLines (joining : Bool) : List Char → Option (List Char × List Char)
  | [] => none
  | '"' :: '"' :: '"' :: '"' :: '"' :: rest => some (['"', '"'], rest)
  | '"' :: '"' :: '"' :: '"' :: rest => some (['"'], rest)
  | '"' :: '"' :: '"' :: rest => some ([], rest)
  | '\\' :: 'u' :: a :: b :: c :: d :: rest =>
    push? (hexChar? [a, b, c, d]) (decodeLines false rest)
  | '\\' :: 'U' :: a :: b :: c :: d :: e :: f :: g :: h :: rest =>
    push? (hexChar? [a, b, c, d, e, f, g, h]) (decodeLines false rest)
  | '\\' :: c :: rest =>
    if endsLine (c :: rest) then
      if c = '\r' then decodeLines true rest
      else if c = ' ' ∨ c = '\t' ∨ c = '\n' then decodeLines true rest
      else none
    else push? (unescape? c) (decodeLines false rest)
  | '\r' :: '\n' :: rest =>
    if joining then decodeLines true rest else push '\n' (decodeLines false rest)
  | c :: rest =>
    if joining && (c = ' ' || c = '\t' || c = '\n') then decodeLines true rest
    else if c = '\n' || isPlain c && c ≠ '\\' then push c (decodeLines false rest)
    else none

/-- Read behind three apostrophes. -/
def decodeLiteralLines : List Char → Option (List Char × List Char)
  | [] => none
  | '\x27' :: '\x27' :: '\x27' :: '\x27' :: '\x27' :: rest => some ([apostrophe, apostrophe], rest)
  | '\x27' :: '\x27' :: '\x27' :: '\x27' :: rest => some ([apostrophe], rest)
  | '\x27' :: '\x27' :: '\x27' :: rest => some ([], rest)
  | '\r' :: '\n' :: rest => push '\n' (decodeLiteralLines rest)
  | c :: rest => if c = '\n' || isPlain c then push c (decodeLiteralLines rest) else none

/-- What stands behind the first line end, if a text begins with one. -/
def dropLineEnd : List Char → List Char
  | '\n' :: rest => rest
  | '\r' :: '\n' :: rest => rest
  | s => s

def decode : List Char → Option (List Char × List Char)
  | '"' :: '"' :: '"' :: rest => decodeLines false (dropLineEnd rest)
  | '"' :: rest => decodeLine rest
  | '\x27' :: '\x27' :: '\x27' :: rest => decodeLiteralLines (dropLineEnd rest)
  | '\x27' :: rest => decodeLiteral rest
  | _ => none

def decodeOneLine : List Char → Option (List Char × List Char)
  | '"' :: rest => decodeLine rest
  | '\x27' :: rest => decodeLiteral rest
  | _ => none

end PeerPanel.Toml
