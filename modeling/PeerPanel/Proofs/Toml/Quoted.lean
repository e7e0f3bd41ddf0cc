import Mathlib.Data.List.Induction
import Mathlib.Data.List.Infix
import PeerPanel.Toml.Quoted

/-!
Every text is read back from the quotes that it is written in.

For each way to enclose a text there is one statement that reading undoes writing, under the
condition on which that way is chosen. Between triple quotes the next quote of a text may stand
before the closing ones, so there the quotes ahead decide what is read: `decodeLines_encodeLines`
and `decodeLiteralLines_append` look at them two at a time. Main statement: `decode_encode`.
-/

set_option autoImplicit false
set_option relaxedAutoImplicit false

namespace PeerPanel.Toml

section

variable {c : Char} {s : List Char} {n : Nat}

private theorem replicate_suffix_concat_iff {x : Char} :
    List.replicate n c <:+ s ++ [x] ↔
      n = 0 ∨ x = c ∧ List.replicate (n - 1) c <:+ s := by
  cases n with
  | zero => simp
  | succ n =>
    rw [List.replicate_succ', List.suffix_concat_iff]
    simp only [List.append_eq_nil_iff, List.cons_ne_self, and_false, false_or, Nat.add_one_ne_zero,
      Nat.add_one_sub_one]
    constructor
    · rintro ⟨t, same, suffix⟩
      obtain ⟨rfl, rfl⟩ := List.append_singleton_inj.mp same
      exact ⟨rfl, suffix⟩
    · rintro ⟨rfl, suffix⟩
      exact ⟨_, rfl, suffix⟩

/-- One step of the count: the equal characters up to here, and the most that were in a row. -/
def countRun (c : Char) (counts : Nat × Nat) (x : Char) : Nat × Nat :=
  if x = c then (counts.1 + 1, max counts.2 (counts.1 + 1)) else (0, counts.2)

private theorem longestRun_eq : longestRun c s = (s.foldl (countRun c) (0, 0)).2 := rfl

private theorem le_longestRun_iff : n ≤ longestRun c s ↔ List.replicate n c <:+: s := by
  rw [longestRun_eq]
  suffices both : ∀ n,
      (n ≤ (s.foldl (countRun c) (0, 0)).1 ↔ List.replicate n c <:+ s) ∧
      (n ≤ (s.foldl (countRun c) (0, 0)).2 ↔ List.replicate n c <:+: s) from (both n).2
  induction s using List.reverseRecOn with
  | nil =>
    intro n
    cases n <;> simp
  | append_singleton s x ih =>
    intro n
    rw [List.foldl_append, List.foldl_cons, List.foldl_nil, List.infix_concat_iff,
      replicate_suffix_concat_iff, countRun]
    obtain ⟨-, best⟩ := ih n
    obtain ⟨run, -⟩ := ih (n - 1)
    by_cases own : x = c
    · simp only [own, if_true, true_and, ← run, ← best]
      omega
    · simp only [own, if_false, false_and, or_false, ← best]
      omega

end

theorem isCountable_iff {s : List Char} :
    isCountable s = true ↔ ∀ quote ∈ ['"', apostrophe], ¬ List.replicate 256 quote <:+: s := by
  simp only [isCountable, Bool.and_eq_true, decide_eq_true_eq, List.forall_mem_cons,
    List.not_mem_nil, false_implies, implies_true, and_true, ← le_longestRun_iff]
  omega

/-- What stands behind a closing quote does not continue it. -/
def Unquoted (rest : List Char) : Prop := ∀ c ∈ rest.head?, c ≠ '"' ∧ c ≠ apostrophe

section

variable {c : Char} {s rest : List Char}

private theorem isPlain_of_not_isControl (clean : isControl c = false) (inLine : c ≠ '\n') :
    isPlain c = true := by
  by_cases tab : c = '\t'
  · simp [isPlain, tab]
  · simp only [isControl, isPlain, ne_eq, tab, inLine, not_false_eq_true, decide_true,
      decide_false, Bool.and_true, Bool.false_or, Bool.or_eq_false_iff, Bool.and_eq_true,
      decide_eq_false_iff_not, decide_eq_true_eq] at clean ⊢
    exact ⟨by omega, clean.2⟩

private theorem hexChar?_of_isControl (control : isControl c = true) :
    hexChar? ['0', '0', hexDigit (c.toNat / 16), hexDigit (c.toNat % 16)] = some c := by
  have small : c.toNat < 128 := by
    simp only [isControl, Bool.or_eq_true, Bool.and_eq_true, decide_eq_true_eq] at control
    omega
  have table : ∀ n < 128,
      hexChar? ['0', '0', hexDigit (n / 16), hexDigit (n % 16)] = some (Char.ofNat n) := by decide
  rw [table c.toNat small, Char.ofNat_toNat]

private theorem escaped_cases (lineFeed : c ≠ '\n') :
    (∃ letter, escaped c = ['\\', letter] ∧ unescape? letter = some c ∧
        letter ∉ ['u', 'U', ' ', '\t', '\n', '\r']) ∨
      (escaped c = ['\\', 'u', '0', '0', hexDigit (c.toNat / 16), hexDigit (c.toNat % 16)] ∧
        isControl c = true) ∨
      (escaped c = [c] ∧ c ≠ '\\' ∧ c ≠ '\t' ∧ isPlain c = true ∧ c ≠ '\r') := by
  unfold escaped
  split
  · next h => exact .inl ⟨'b', rfl, by rw [h]; rfl, by decide⟩
  split
  · next h => exact .inl ⟨'t', rfl, by rw [h]; rfl, by decide⟩
  split
  · next h => exact .inl ⟨'f', rfl, by rw [h]; rfl, by decide⟩
  split
  · next h => exact .inl ⟨'r', rfl, by rw [h]; rfl, by decide⟩
  split
  · next h => exact .inl ⟨'\\', rfl, by rw [h]; rfl, by decide⟩
  split
  · next control => exact .inr (.inl ⟨rfl, control⟩)
  · next tab _ carriage backslash clean =>
    exact .inr (.inr ⟨rfl, backslash, tab,
      isPlain_of_not_isControl (by simpa using clean) lineFeed, carriage⟩)

private theorem decodeLine_escaped (quote : c ≠ '"') (lineFeed : c ≠ '\n') (rest : List Char) :
    decodeLine (escaped c ++ rest) = push c (decodeLine rest) := by
  rcases escaped_cases lineFeed with
    ⟨letter, written, stands, other⟩ | ⟨written, control⟩ | ⟨written, backslash, -, plain, -⟩
  · simp only [List.mem_cons, List.not_mem_nil, or_false, not_or] at other
    rw [written, List.cons_append, List.cons_append, List.nil_append, decodeLine, stands]
    · rfl
    · exact fun _ _ _ _ _ e => absurd e other.1
    · exact fun _ _ _ _ _ _ _ _ _ e => absurd e other.2.1
  · rw [written]
    simp only [List.cons_append, List.nil_append, decodeLine, hexChar?_of_isControl control]
    rfl
  · rw [written, List.cons_append, List.nil_append, decodeLine, if_pos plain]
    · exact quote
    · exact fun _ _ _ _ _ e => absurd e backslash
    · exact fun _ _ _ _ _ _ _ _ _ e => absurd e backslash
    · exact fun _ _ e => absurd e backslash

private theorem decodeLine_encodeLine (s rest : List Char) :
    decodeLine (encodeLine s ++ '"' :: rest) = some (s, rest) := by
  induction s with
  | nil => simp [encodeLine, decodeLine]
  | cons c s ih =>
    rw [encodeLine, List.append_assoc]
    split
    · next quote =>
      subst quote
      simp [decodeLine, unescape?, push?, push, ih]
    split
    · next lineFeed =>
      subst lineFeed
      simp [decodeLine, unescape?, push?, push, ih]
    · next quote lineFeed =>
      rw [decodeLine_escaped quote lineFeed, ih]
      rfl

private theorem decodeLiteral_append (plain : ∀ c ∈ s, isPlain c = true) (free : apostrophe ∉ s)
    (rest : List Char) : decodeLiteral (s ++ apostrophe :: rest) = some (s, rest) := by
  induction s with
  | nil => simp [decodeLiteral]
  | cons c s ih =>
    have other : c ≠ apostrophe := fun e => free (e ▸ List.mem_cons_self)
    rw [List.cons_append, decodeLiteral, if_neg other, if_pos (plain c List.mem_cons_self),
      ih (fun d hd => plain d (List.mem_cons_of_mem c hd)) fun h => free (List.mem_cons_of_mem c h)]
    rfl

private theorem decodeLines_escaped (quote : c ≠ '"') (lineFeed : c ≠ '\n') (rest : List Char) :
    decodeLines false (escaped c ++ rest) = push c (decodeLines false rest) := by
  rcases escaped_cases lineFeed with
    ⟨letter, written, stands, other⟩ | ⟨written, control⟩ |
      ⟨written, backslash, tab, plain, carriage⟩
  · simp only [List.mem_cons, List.not_mem_nil, or_false, not_or] at other
    obtain ⟨short, long, blank, tab, lineEnd, carriage⟩ := other
    have goesOn : endsLine (letter :: rest) = false := by
      simp [endsLine, blank, tab, lineEnd, carriage]
    rw [written, List.cons_append, List.cons_append, List.nil_append, decodeLines, stands, goesOn]
    · rfl
    · grind
    · grind
  · rw [written]
    simp only [List.cons_append, List.nil_append, decodeLines, hexChar?_of_isControl control]
    rfl
  · rw [written, List.cons_append, List.nil_append, decodeLines]
    · simp [plain, backslash]
    all_goals grind

private theorem decodeLines_quote (apart : ¬ ['"', '"'] <+: s) :
    decodeLines false ('"' :: s) = push '"' (decodeLines false s) := by
  rw [decodeLines]
  · rfl
  all_goals grind

private theorem decodeLines_replicate_quote {n : Nat} (few : n ≤ 2) (free : Unquoted rest) :
    decodeLines false (List.replicate n '"' ++ '"' :: '"' :: '"' :: rest) =
      some (List.replicate n '"', rest) := by
  have apart : ∀ more, rest ≠ '"' :: more := by
    rintro more rfl
    exact (free '"' rfl).1 rfl
  match n, few with
  | 0, _ =>
    rw [List.replicate_zero, List.nil_append, decodeLines]
    · exact fun _ => apart _
    · exact apart
  | 1, _ =>
    rw [List.replicate_one, List.singleton_append, decodeLines]
    exact apart
  | 2, _ =>
    rw [List.replicate_succ, List.replicate_one, List.cons_append, List.singleton_append,
      decodeLines]

private theorem exists_escaped (quote : c ≠ '"') (lineFeed : c ≠ '\n') :
    ∃ d t, escaped c = d :: t ∧ d ≠ '"' ∧ d ≠ '\n' ∧ d ≠ '\r' := by
  rcases escaped_cases lineFeed with
    ⟨letter, written, -⟩ | ⟨written, -⟩ | ⟨written, -, -, -, carriage⟩
  · exact ⟨_, _, written, by decide⟩
  · exact ⟨_, _, written, by decide⟩
  · exact ⟨_, _, written, quote, lineFeed, carriage⟩

/-- What is written behind some quotes begins with so few that there are at most two in a row, or
it is made of so few quotes alone. -/
private theorem exists_encodeLines {run : Nat} (few : run ≤ 2) (s : List Char) :
    (∃ n, n + run ≤ 2 ∧ s = List.replicate n '"' ∧ encodeLines run s = s) ∨
      ∃ n c t, n + run ≤ 2 ∧ c ≠ '"' ∧ encodeLines run s = List.replicate n '"' ++ c :: t := by
  induction s generalizing run with
  | nil => exact .inl ⟨0, by omega, rfl, rfl⟩
  | cons c s ih =>
    rw [encodeLines]
    split
    · next quote =>
      subst quote
      split
      · exact .inr ⟨0, '\\', _, by omega, by decide, rfl⟩
      · next more =>
        obtain ⟨n, fits, alone, written⟩ | ⟨n, d, t, fits, other, written⟩ :=
          @ih (run + 1) (by omega)
        · exact .inl ⟨n + 1, by omega, by rw [List.replicate_succ, ← alone], by rw [written]⟩
        · exact .inr ⟨n + 1, d, t, by omega, other, by rw [written]; rfl⟩
    split
    · exact .inr ⟨0, '\n', _, by omega, by decide, rfl⟩
    · next quote lineFeed =>
      obtain ⟨d, t, written, other, -⟩ := exists_escaped quote lineFeed
      exact .inr ⟨0, d, t ++ encodeLines 0 s, by omega, other, by rw [written]; rfl⟩

theorem decodeLines_encodeLines {run : Nat} (few : run ≤ 2) (free : Unquoted rest) :
    decodeLines false (encodeLines run s ++ '"' :: '"' :: '"' :: rest) = some (s, rest) := by
  induction s generalizing run with
  | nil => exact decodeLines_replicate_quote (n := 0) (by omega) free
  | cons c s ih =>
    rw [encodeLines]
    split
    · next quote =>
      subst quote
      split
      · simp [decodeLines, unescape?, endsLine, push?, push, ih]
      · next more =>
        obtain ⟨n, fits, alone, written⟩ | ⟨n, d, t, fits, other, written⟩ :=
          @exists_encodeLines (run + 1) (by omega) s
        · rw [written, alone, ← List.replicate_succ]
          exact decodeLines_replicate_quote (by omega) free
        · rw [List.cons_append, decodeLines_quote, ih (by omega)]
          · rfl
          · have one : n = 0 ∨ n = 1 := by omega
            rcases one with rfl | rfl <;> simp [written, Ne.symm other]
    split
    · next lineFeed =>
      subst lineFeed
      simp [decodeLines, push, ih]
    · next quote lineFeed =>
      rw [List.append_assoc, decodeLines_escaped quote lineFeed, ih (by omega)]
      rfl

private theorem decodeLiteralLines_apostrophe
    (apart : ¬ [apostrophe, apostrophe] <+: s) :
    decodeLiteralLines (apostrophe :: s) = push apostrophe (decodeLiteralLines s) := by
  unfold apostrophe at *
  rw [decodeLiteralLines]
  · rfl
  all_goals grind

private theorem decodeLiteralLines_replicate {n : Nat} (few : n ≤ 2) (free : Unquoted rest) :
    decodeLiteralLines
        (List.replicate n apostrophe ++ apostrophe :: apostrophe :: apostrophe :: rest) =
      some (List.replicate n apostrophe, rest) := by
  have apart : ∀ more, rest ≠ '\x27' :: more := by
    rintro more rfl
    exact (free '\x27' rfl).2 rfl
  unfold apostrophe
  match n, few with
  | 0, _ =>
    rw [List.replicate_zero, List.nil_append, decodeLiteralLines]
    · exact fun _ => apart _
    · exact apart
  | 1, _ =>
    rw [List.replicate_one, List.singleton_append, decodeLiteralLines]
    · rfl
    · exact apart
  | 2, _ =>
    rw [List.replicate_succ, List.replicate_one, List.cons_append, List.singleton_append,
      decodeLiteralLines]
    rfl

theorem decodeLiteralLines_append (plain : ∀ c ∈ s, c = '\n' ∨ isPlain c = true)
    (few : ¬ List.replicate 3 apostrophe <:+: s) (free : Unquoted rest) :
    decodeLiteralLines (s ++ apostrophe :: apostrophe :: apostrophe :: rest) = some (s, rest) := by
  induction s with
  | nil => exact decodeLiteralLines_replicate (n := 0) (by omega) free
  | cons c s ih =>
    have read := ih (fun d hd => plain d (List.mem_cons_of_mem c hd)) fun h =>
      few (List.infix_cons h)
    by_cases quote : c = apostrophe
    · subst quote
      by_cases ahead :
          [apostrophe, apostrophe] <+: s ++ apostrophe :: apostrophe :: apostrophe :: rest
      · match s, few, ahead with
        | [], _, _ => exact decodeLiteralLines_replicate (n := 1) (by omega) free
        | [d], _, ahead =>
          obtain rfl : apostrophe = d := (List.cons_prefix_cons.mp ahead).1
          exact decodeLiteralLines_replicate (n := 2) (by omega) free
        | d :: e :: s, few, ahead =>
          simp only [List.cons_append, List.cons_prefix_cons] at ahead
          obtain ⟨rfl, rfl, -⟩ := ahead
          exact absurd (List.prefix_append _ s).isInfix few
      · rw [List.cons_append, decodeLiteralLines_apostrophe ahead, read]
        rfl
    · have stands := plain c List.mem_cons_self
      have carriage : c ≠ '\r' := by
        rintro rfl
        exact absurd stands (by decide)
      rw [List.cons_append, decodeLiteralLines, read]
      · simp [stands, push]
      · exact fun _ e _ => absurd e quote
      · exact fun _ e _ => absurd e quote
      · exact fun _ e _ => absurd e quote
      · exact fun _ e _ => absurd e carriage

private theorem dropLineEnd_opening (begins : '\n' ∉ s → ∀ c ∈ rest.head?, c ≠ '\n' ∧ c ≠ '\r') :
    dropLineEnd (opening s ++ rest) = rest := by
  unfold opening
  split
  · rfl
  · next oneLine =>
    rw [List.nil_append]
    match rest, begins (by simpa using oneLine) with
    | [], _ => rfl
    | c :: rest, begins =>
      obtain ⟨lineFeed, carriage⟩ := begins c rfl
      rw [dropLineEnd]
      · exact fun _ e => lineFeed (List.cons.inj e).1
      · exact fun _ e => carriage (List.cons.inj e).1

private theorem decode_quote (apart : ¬ ['"', '"'] <+: s) : decode ('"' :: s) = decodeLine s := by
  rw [decode]
  grind

private theorem decode_apostrophe (apart : ¬ [apostrophe, apostrophe] <+: s) :
    decode (apostrophe :: s) = decodeLiteral s := by
  unfold apostrophe at *
  rw [decode]
  grind

end

/-- The texts that quotes can hold. Between apostrophes nothing is escaped. -/
def Quotes.Holds : Quotes → List Char → Prop
  | .double, _ => True
  | .single, s => (∀ c ∈ s, isPlain c = true) ∧ apostrophe ∉ s
  | .tripleDouble, _ => True
  | .tripleSingle, s =>
    (∀ c ∈ s, c = '\n' ∨ isPlain c = true) ∧ ¬ List.replicate 3 apostrophe <:+: s

section

variable {s rest : List Char}

private theorem quotesFor_holds (s : List Char) : (quotesFor s).Holds s := by
  have plain (clean : s.any isControl = false) (c : Char) (mem : c ∈ s) :
      c = '\n' ∨ isPlain c = true :=
    or_iff_not_imp_left.mpr <|
      isPlain_of_not_isControl (by simpa using List.any_eq_false.mp clean c mem)
  simp only [quotesFor]
  split
  · trivial
  split
  · next single =>
    simp only [Bool.and_eq_true, Bool.not_eq_true', List.contains_eq_mem,
      decide_eq_false_iff_not] at single
    obtain ⟨⟨clean, oneLine⟩, free⟩ := single
    refine ⟨fun c mem => (plain clean c mem).resolve_left ?_, free⟩
    rintro rfl
    exact oneLine mem
  split
  · trivial
  split
  · next tripleSingle =>
    simp only [Bool.and_eq_true, Bool.not_eq_true', decide_eq_true_eq] at tripleSingle
    refine ⟨plain tripleSingle.1, fun three => ?_⟩
    have := le_longestRun_iff.mpr three
    omega
  split
  · trivial
  · trivial

private theorem decode_double (free : Unquoted rest) :
    decode (encodeIn .double s ++ rest) = some (s, rest) := by
  have body : encodeIn .double s ++ rest = '"' :: (encodeLine s ++ '"' :: rest) := by
    simp [encodeIn]
  have apart : ¬ ['"', '"'] <+: encodeLine s ++ '"' :: rest := by
    cases s with
    | nil =>
      intro ahead
      have second : ['"'] <+: rest := (List.cons_prefix_cons.mp ahead).2
      exact (free '"' (List.singleton_prefix_iff_head?_eq_some.mp second)).1 rfl
    | cons c s =>
      rw [encodeLine]
      split
      · simp
      split
      · simp
      · next quote lineFeed =>
        obtain ⟨d, t, written, other, -⟩ := exists_escaped quote lineFeed
        simp [written, Ne.symm other]
  rw [body, decode_quote apart, decodeLine_encodeLine]

private theorem decode_single (holds : Quotes.Holds .single s) (free : Unquoted rest) :
    decode (encodeIn .single s ++ rest) = some (s, rest) := by
  obtain ⟨plain, alone⟩ := holds
  have body : encodeIn .single s ++ rest = apostrophe :: (s ++ apostrophe :: rest) := by
    simp [encodeIn]
  have apart : ¬ [apostrophe, apostrophe] <+: s ++ apostrophe :: rest := by
    cases s with
    | nil =>
      intro ahead
      have second : [apostrophe] <+: rest := (List.cons_prefix_cons.mp ahead).2
      exact (free apostrophe (List.singleton_prefix_iff_head?_eq_some.mp second)).2 rfl
    | cons c s =>
      intro ahead
      exact alone ((List.cons_prefix_cons.mp ahead).1 ▸ List.mem_cons_self)
  rw [body, decode_apostrophe apart, decodeLiteral_append plain alone]

private theorem decode_tripleDouble (free : Unquoted rest) :
    decode (encodeIn .tripleDouble s ++ rest) = some (s, rest) := by
  have body : encodeIn .tripleDouble s ++ rest =
      '"' :: '"' :: '"' :: (opening s ++ (encodeLines 0 s ++ '"' :: '"' :: '"' :: rest)) := by
    simp [encodeIn]
  have begins (oneLine : '\n' ∉ s) :
      ∀ c ∈ (encodeLines 0 s ++ '"' :: '"' :: '"' :: rest).head?, c ≠ '\n' ∧ c ≠ '\r' := by
    cases s with
    | nil => simp [encodeLines]
    | cons c s =>
      rw [encodeLines]
      split
      · simp
      · next quote =>
        have lineFeed : c ≠ '\n' := fun e => oneLine (e ▸ List.mem_cons_self)
        obtain ⟨d, t, written, -, ends⟩ := exists_escaped quote lineFeed
        simp [lineFeed, written, ends]
  rw [body, decode, dropLineEnd_opening begins, decodeLines_encodeLines (by omega) free]

private theorem decode_tripleSingle (holds : Quotes.Holds .tripleSingle s) (free : Unquoted rest) :
    decode (encodeIn .tripleSingle s ++ rest) = some (s, rest) := by
  have body : encodeIn .tripleSingle s ++ rest = apostrophe :: apostrophe :: apostrophe ::
      (opening s ++ (s ++ apostrophe :: apostrophe :: apostrophe :: rest)) := by
    simp [encodeIn]
  obtain ⟨plain, few⟩ := holds
  have begins (oneLine : '\n' ∉ s) :
      ∀ c ∈ (s ++ apostrophe :: apostrophe :: apostrophe :: rest).head?,
        c ≠ '\n' ∧ c ≠ '\r' := by
    cases s with
    | nil => simp [apostrophe]
    | cons c s =>
      rintro d ⟨⟩
      have lineFeed : c ≠ '\n' := fun e => oneLine (e ▸ List.mem_cons_self)
      refine ⟨lineFeed, ?_⟩
      rintro rfl
      exact absurd (plain '\r' List.mem_cons_self) (by decide)
  have read (t : List Char) :
      decode (apostrophe :: apostrophe :: apostrophe :: t) =
        decodeLiteralLines (dropLineEnd t) := by
    unfold apostrophe
    rw [decode]
  rw [body, read, dropLineEnd_opening begins, decodeLiteralLines_append plain few free]

/-- Every text is read back from what it is written as, wherever no quote stands behind it. -/
theorem decode_encode (s : List Char) (free : Unquoted rest) :
    decode (encode s ++ rest) = some (s, rest) := by
  have holds := quotesFor_holds s
  unfold encode
  cases chosen : quotesFor s with
  | double => exact decode_double free
  | single => exact decode_single (chosen ▸ holds) free
  | tripleDouble => exact decode_tripleDouble free
  | tripleSingle => exact decode_tripleSingle (chosen ▸ holds) free

end

end PeerPanel.Toml
