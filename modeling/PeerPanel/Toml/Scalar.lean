import PeerPanel.Toml.Value

/-!
Values that are written without quotes and brackets: numbers, truth values, dates and times.

Such a value is a run of letters, digits and a few signs; a date and a time may also stand beside
each other. What the run means is decided by its shape alone.
-/

set_option autoImplicit false
set_option relaxedAutoImplicit false

namespace PeerPanel.Toml

/-- A character that can be part of a value without quotes. -/
def isScalarChar (c : Char) : Bool :=
  c.isAlphanum || c = '+' || c = '-' || c = '_' || c = '.' || c = ':'

/-- Take exactly so many digits, and yield their number. -/
def takeDigits : Nat → List Char → Option (Nat × List Char) :=
  let rec go (n : Nat) : Nat → List Char → Option (Nat × List Char)
    | 0, s => some (n, s)
    | k + 1, c :: s => if c.isDigit then go (10 * n + (c.toNat - 0x30)) k s else none
    | _ + 1, [] => none
  go 0

def takeChar (c : Char) : List Char → Option (List Char)
  | x :: s => if x = c then some s else none
  | [] => none

def daysOf (year month : Nat) : Nat :=
  if month = 2 then
    if year % 4 = 0 ∧ (year % 100 ≠ 0 ∨ year % 400 = 0) then 29 else 28
  else if month = 4 ∨ month = 6 ∨ month = 9 ∨ month = 11 then 30
  else 31

/-- Take a date that the calendar has. -/
def takeDate (s : List Char) : Option (List Char) := do
  let (year, s) ← takeDigits 4 s
  let s ← takeChar '-' s
  let (month, s) ← takeDigits 2 s
  let s ← takeChar '-' s
  let (day, s) ← takeDigits 2 s
  if 1 ≤ month ∧ month ≤ 12 ∧ 1 ≤ day ∧ day ≤ daysOf year month then some s else none

/-- Take a time of the day; its last minute may have a leap second. -/
def takeTime (s : List Char) : Option (List Char) := do
  let (hour, s) ← takeDigits 2 s
  let s ← takeChar ':' s
  let (minute, s) ← takeDigits 2 s
  let s ← takeChar ':' s
  let (second, s) ← takeDigits 2 s
  if hour ≤ 23 ∧ minute ≤ 59 ∧ second ≤ 60 then
    match s with
    | '.' :: rest =>
      if rest.takeWhile Char.isDigit = [] then none else some (rest.dropWhile Char.isDigit)
    | _ => some s
  else none

/-- Whether a text is empty or the distance of a time zone. -/
def isZone : List Char → Bool
  | [] => true
  | ['Z'] => true
  | ['z'] => true
  | sign :: s =>
    (sign = '+' || sign = '-') &&
      match (do
        let (hour, s) ← takeDigits 2 s
        let s ← takeChar ':' s
        let (minute, s) ← takeDigits 2 s
        pure (decide (hour ≤ 23 ∧ minute ≤ 59) && s.isEmpty) : Option Bool) with
      | some b => b
      | none => false

/-- Whether a text is a time, with a zone or without. -/
def isZonedTime (s : List Char) : Bool :=
  match takeTime s with
  | some rest => isZone rest
  | none => false

/-- Whether a text is a date, a time, or a date and a time joined by a letter. -/
def isDateTime (s : List Char) : Bool :=
  match takeDate s with
  | some [] => true
  | some ('T' :: time) => isZonedTime time
  | some ('t' :: time) => isZonedTime time
  | some _ => false
  | none => takeTime s = some []

def isDate (s : List Char) : Bool := takeDate s = some []

/-- The digits of a text in which single underscores may separate them. -/
def digitGroups (isDigit : Char → Bool) : List Char → Option (List Char)
  | [] => none
  | [c] => if isDigit c then some [c] else none
  | c :: '_' :: rest =>
    if isDigit c then (digitGroups isDigit rest).map (c :: ·) else none
  | c :: rest => if isDigit c then (digitGroups isDigit rest).map (c :: ·) else none

/-- The value of a digit or letter as a digit to a base of at most sixteen. -/
def digitValue (c : Char) : Nat :=
  if c.isDigit then c.toNat - 0x30
  else if 'a' ≤ c then c.toNat - 0x57
  else c.toNat - 0x37

/-- Whether a character is a digit to a base of at most sixteen. -/
def isDigitTo (base : Nat) (c : Char) : Bool :=
  (c.isDigit || ('a' ≤ c && c ≤ 'f') || ('A' ≤ c && c ≤ 'F')) && digitValue c < base

def ofDigits (base : Nat) (s : List Char) : Nat :=
  s.foldl (fun n c => base * n + digitValue c) 0

def fitting (n : Int) : Option Value :=
  if -9223372036854775808 ≤ n ∧ n ≤ 9223372036854775807 then some (.integer n) else none

/-- The sign of a number, if there is one, and what stands behind it. -/
def splitSign : List Char → Bool × List Char
  | '-' :: s => (true, s)
  | '+' :: s => (false, s)
  | s => (false, s)

/-- The digits of a decimal integer without a sign. It has no leading zero. -/
def decimalDigits (s : List Char) : Option (List Char) := do
  let digits ← digitGroups (isDigitTo 10) s
  if digits.head? = some '0' ∧ s ≠ ['0'] then none else some digits

/-- An integer: decimal with a sign or without, or with a mark for another base. -/
def integer? (s : List Char) : Option Value :=
  match s with
  | '0' :: 'x' :: s => do fitting (ofDigits 16 (← digitGroups (isDigitTo 16) s))
  | '0' :: 'o' :: s => do fitting (ofDigits 8 (← digitGroups (isDigitTo 8) s))
  | '0' :: 'b' :: s => do fitting (ofDigits 2 (← digitGroups (isDigitTo 2) s))
  | s => do
    let (negative, s) := splitSign s
    let n := ofDigits 10 (← decimalDigits s)
    fitting (if negative then -n else n)

/-- The middle between the largest finite float and the power of two above it. -/
def infinityBound : Nat := Nat.pow 2 1024 - Nat.pow 2 970

/-- Whether `digits` times ten to the power of `exponent` is nearer to the infinite float than to
the largest finite one, or as near. -/
def isInfinite (digits : Nat) (exponent : Int) : Bool :=
  let magnitude : Int := (toString digits).length + exponent
  if digits = 0 ∨ magnitude < 300 then false
  else if 400 < magnitude then true
  else if 0 ≤ exponent then infinityBound ≤ digits * Nat.pow 10 exponent.toNat
  else infinityBound * Nat.pow 10 (-exponent).toNat ≤ digits

/-- A float: an integer with a fraction, an exponent or both, or one of the special names. A
positive one must be finite. -/
def float? (s : List Char) : Option Value := do
  let (negative, s) := splitSign s
  if s = ['i', 'n', 'f'] ∨ s = ['n', 'a', 'n'] then pure .float
  else
    let isMark (c : Char) : Bool := c = '.' || c = 'e' || c = 'E'
    let whole ← decimalDigits (s.takeWhile fun c => !isMark c)
    let rest := s.dropWhile fun c => !isMark c
    let (fraction, rest) ← match rest with
      | '.' :: r => do
        let digits ← digitGroups (isDigitTo 10) (r.takeWhile fun c => !isMark c)
        pure (digits, r.dropWhile fun c => !isMark c)
      | _ => pure ([], rest)
    let exponent ← match rest with
      | [] => if fraction = [] then none else pure (0 : Int)
      | mark :: r =>
        if mark = '.' then none
        else do
          let (lowers, r) := splitSign r
          let n := ofDigits 10 (← digitGroups (isDigitTo 10) r)
          pure (if lowers then -(n : Int) else n)
    if !negative && isInfinite (ofDigits 10 (whole ++ fraction)) (exponent - fraction.length) then
      none
    else pure .float

def scalar? (s : List Char) : Option Value :=
  if s = ['t', 'r', 'u', 'e'] ∨ s = ['f', 'a', 'l', 's', 'e'] then some .boolean
  else if isDateTime s then some .datetime
  else (integer? s).or (float? s)

/-- Read a value without quotes. A date may be followed by a blank and a time. -/
def readScalar (s : List Char) : Option (Value × List Char) :=
  let token := s.takeWhile isScalarChar
  let rest := s.dropWhile isScalarChar
  match isDate token, rest with
  | true, ' ' :: c :: more =>
    if c.isDigit then
      let time := (c :: more).takeWhile isScalarChar
      if isZonedTime time then some (.datetime, (c :: more).dropWhile isScalarChar) else none
    else some (.datetime, rest)
  | _, _ => (scalar? token).map fun v => (v, rest)

end PeerPanel.Toml
