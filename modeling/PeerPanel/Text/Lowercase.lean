import PeerPanel.Text.CaseTable

/-!
Lower case of a text, as Unicode defines it without a language.

Nearly every character has a lower case of its own. A capital I with a dot becomes two characters.
A capital sigma becomes the final small sigma at the end of a word and the other one elsewhere; it
ends a word if, past the characters that are passed over, a cased letter stands before it and none
behind it.
-/

set_option autoImplicit false
set_option relaxedAutoImplicit false

namespace PeerPanel.Text

def inRanges (ranges : List (Nat × Nat)) (c : Char) : Bool :=
  ranges.any fun r => r.1 ≤ c.toNat && c.toNat ≤ r.2

def isCased (c : Char) : Bool := inRanges casedRanges c

/-- Whether a character is passed over in the search for a neighbouring letter. -/
def isIgnorable (c : Char) : Bool := inRanges ignorableRanges c

/-- Whether the first character that is not passed over is a cased letter. -/
def nextIsCased (cs : List Char) : Bool :=
  match cs.dropWhile isIgnorable with
  | c :: _ => isCased c
  | [] => false

/-- Whether a run of the table speaks of a character. -/
def LowerRun.covers (r : LowerRun) (n : Nat) : Bool :=
  r.first ≤ n && n ≤ r.last && (n - r.first) % r.step == 0

/-- The lower case of a character that has one of a single character, else the character. -/
def lowerChar (c : Char) : Char :=
  if c.toNat < 0x80 then c.toLower
  else match lowerRuns.find? fun r => r.covers c.toNat with
    | some r => Char.ofNat (r.target + (c.toNat - r.first))
    | none => c

/-- The lower case of a character, given what stands before it, nearest first, and behind it. -/
def lowerAt (before : List Char) (c : Char) (behind : List Char) : List Char :=
  if c = 'Σ' then
    if nextIsCased before && !nextIsCased behind then ['ς'] else ['σ']
  else if c = 'İ' then ['i', '\u0307']
  else [lowerChar c]

/-- The lower case of what is left of a text, given what stands before it, nearest first. -/
def lowerFrom (before : List Char) : List Char → List Char
  | [] => []
  | c :: rest => lowerAt before c rest ++ lowerFrom (c :: before) rest

def lowercase (cs : List Char) : List Char := lowerFrom [] cs

def occursIn (needle : List Char) : List Char → Bool
  | [] => needle.isEmpty
  | c :: rest => needle.isPrefixOf (c :: rest) || occursIn needle rest

/-- Whether a text occurs in another when both are put into lower case. -/
def matchesIn (needle text : String) : Bool :=
  occursIn (lowercase needle.toList) (lowercase text.toList)

theorem occursIn_iff (needle : List Char) (text : List Char) :
    occursIn needle text = true ↔ needle <:+: text := by
  induction text with
  | nil => simp [occursIn, List.isEmpty_iff]
  | cons c rest ih =>
    rw [occursIn, Bool.or_eq_true, ih, List.infix_cons_iff, List.isPrefixOf_iff_prefix]

end PeerPanel.Text
