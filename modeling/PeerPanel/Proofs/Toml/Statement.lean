import PeerPanel.Proofs.Toml.Quoted
import PeerPanel.Proofs.Toml.Scalar
import PeerPanel.Toml.Statement

/-!
The lines of a document are read back.

A bare name, a header, an assignment and the items of an array each have one statement: what is
written for it is read as it, and the rest of the text is left.
-/

set_option autoImplicit false
set_option relaxedAutoImplicit false

namespace PeerPanel.Toml

/-- A name that needs no quotes. -/
def Bare (name : List Char) : Prop := name ≠ [] ∧ name.all isKeyChar = true

instance (name : List Char) : Decidable (Bare name) := inferInstanceAs (Decidable (_ ∧ _))

section

variable {s rest : List Char} {c : Char}

private theorem exists_encode (s : List Char) :
    ∃ q t, encode s = q :: t ∧ (q = '"' ∨ q = apostrophe) := by
  unfold encode
  cases quotesFor s with
  | double => exact ⟨_, _, rfl, .inl rfl⟩
  | single => exact ⟨_, _, rfl, .inr rfl⟩
  | tripleDouble => exact ⟨_, _, rfl, .inl rfl⟩
  | tripleSingle => exact ⟨_, _, rfl, .inr rfl⟩

private theorem skipBlanks_of_not_isBlank (begins : isBlank c = false) :
    skipBlanks (c :: rest) = c :: rest := by
  rw [skipBlanks, List.dropWhile_cons, begins]
  rfl

private theorem Bare.exists_cons {name : List Char} (bare : Bare name) :
    ∃ k more, name = k :: more ∧ isKeyChar k = true := by
  obtain ⟨filled, keys⟩ := bare
  obtain ⟨k, more, rfl⟩ := List.exists_cons_of_ne_nil filled
  exact ⟨k, more, rfl, List.all_eq_true.mp keys k List.mem_cons_self⟩

private theorem isBlank_of_isKeyChar (key : isKeyChar c = true) : isBlank c = false := by
  have blank : c ≠ ' ' ∧ c ≠ '\t' :=
    ⟨ne_of_class key (by decide), ne_of_class key (by decide)⟩
  simp [isBlank, blank]

theorem isBlank_of_mem_head?_encode {text : List Char} :
    ∀ c ∈ (encode text ++ rest).head?, isBlank c = false := by
  obtain ⟨q, t, written, quote⟩ := exists_encode text
  rw [written]
  rintro c ⟨⟩
  rcases quote with rfl | rfl <;> rfl

theorem isBlank_of_mem_head?_toString {n : Nat} :
    ∀ c ∈ ((toString n).toList ++ rest).head?, isBlank c = false := by
  intro c mem
  rw [Nat.toString_eq_repr, Nat.toList_repr,
    List.head?_append_of_ne_nil _ Nat.toDigits_ne_nil] at mem
  have digit := isDigit_of_mem_toDigits c (List.mem_of_mem_head? mem)
  exact isBlank_of_isKeyChar (by simp [isKeyChar, Char.isAlphanum, digit])

private theorem readPart_bare {name : List Char} (bare : Bare name) (ends : isKeyChar c = false) :
    readPart (name ++ c :: rest) = some (String.ofList name, c :: rest) := by
  obtain ⟨k, more, begins, key⟩ := bare.exists_cons
  have keys : ∀ k ∈ name, isKeyChar k = true := List.all_eq_true.mp bare.2
  have part : (name ++ c :: rest).takeWhile isKeyChar = name := takeWhile_append_cons keys ends
  have behind : (name ++ c :: rest).dropWhile isKeyChar = c :: rest :=
    dropWhile_append_cons keys ends
  have quote : k ≠ '"' ∧ k ≠ '\x27' :=
    ⟨ne_of_class key (by decide), ne_of_class key (by decide)⟩
  unfold readPart
  split
  · next written => simp [begins, quote] at written
  · next written => simp [begins, quote] at written
  · simp [part, behind, bare.1]

private theorem readName_bare {name : List Char} (bare : Bare name) (ends : isKeyChar c = false)
    (alone : (skipBlanks (c :: rest)).head? ≠ some '.') :
    readName (name ++ c :: rest) = some ([String.ofList name], skipBlanks (c :: rest)) := by
  obtain ⟨k, more, begins, key⟩ := bare.exists_cons
  have here : skipBlanks (name ++ c :: rest) = name ++ c :: rest := by
    rw [begins, List.cons_append, skipBlanks_of_not_isBlank (isBlank_of_isKeyChar key)]
  rw [readName, readParts, here, readPart_bare bare ends]
  simp only [Option.bind_eq_bind, Option.bind_some]
  split
  · next written => simp [written] at alone
  · rfl

private theorem readStatement_header {name : List Char} (bare : Bare name) (rest : List Char) :
    readStatement ('[' :: name ++ ']' :: '\n' :: rest) =
      some (.header [String.ofList name], rest) := by
  obtain ⟨k, more, begins, key⟩ := bare.exists_cons
  have single : ∀ s, name ++ ']' :: '\n' :: rest ≠ '[' :: s := by
    intro s e
    rw [begins, List.cons_append] at e
    exact ne_of_class key (by decide) (List.cons.inj e).1
  have read : readName (name ++ ']' :: '\n' :: rest) =
      some ([String.ofList name], ']' :: '\n' :: rest) :=
    readName_bare bare (by decide) (by simp [skipBlanks, isBlank])
  rw [List.cons_append, readStatement]
  · rw [read]
    rfl
  · exact single

private theorem readStatement_assign {name text : List Char} {v : Value} (bare : Bare name)
    (begins : ∀ c ∈ text.head?, isBlank c = false)
    (read : readTopValue text = some (v, '\n' :: rest)) :
    readStatement (name ++ ' ' :: '=' :: ' ' :: text) =
      some (.assign [String.ofList name] v, rest) := by
  obtain ⟨k, more, written, key⟩ := bare.exists_cons
  have named : readName (name ++ ' ' :: '=' :: ' ' :: text) =
      some ([String.ofList name], '=' :: ' ' :: text) :=
    readName_bare bare (by decide) (by simp [skipBlanks, isBlank])
  have value : skipBlanks (' ' :: text) = text := by
    cases text with
    | nil => rfl
    | cons c text => exact skipBlanks_of_not_isBlank (begins c rfl)
  have bracket : k ≠ '[' := ne_of_class key (by decide)
  rw [readStatement]
  · simp only [named, value, read, takeChar, Option.bind_eq_bind, Option.bind_some, if_true]
    rfl
  · simp [written, bracket]
  · simp [written, bracket]

theorem readValue_encode (fuel depth : Nat) (s : List Char) (free : Unquoted rest) :
    readValue (fuel + 1) depth (encode s ++ rest) = some (.string (String.ofList s), rest) := by
  obtain ⟨q, t, written, quote⟩ := exists_encode s
  have read := decode_encode s free
  rw [written, List.cons_append] at read ⊢
  rcases quote with rfl | rfl
  · rw [readValue, read]
    rfl
  · unfold apostrophe at *
    rw [readValue, read]
    rfl

theorem readValue_toString (fuel depth : Nat) {n : Nat} (fits : n ≤ 9223372036854775807)
    (ends : isScalarChar c = false) (rest : List Char) :
    readValue (fuel + 1) depth ((toString n).toList ++ c :: rest) =
      some (.integer n, c :: rest) := by
  have digits := @isDigit_of_mem_toDigits n
  have written : (toString n).toList = Nat.toDigits 10 n := by
    rw [Nat.toString_eq_repr, Nat.toList_repr]
  obtain ⟨d, more, begins⟩ := List.exists_cons_of_ne_nil (Nat.toDigits_ne_nil (n := n) (b := 10))
  have digit : d.isDigit = true := digits d (begins ▸ List.mem_cons_self)
  have read := readScalar_toString fits ends rest
  rw [written, begins, List.cons_append] at read ⊢
  have other (q : Char) (sign : q.isDigit = false) : d ≠ q := ne_of_class digit sign
  rw [readValue, read]
  · exact fun _ e => other '"' (by decide) (List.cons.inj e).1
  · exact fun _ e => other '\x27' (by decide) (List.cons.inj e).1
  · exact fun _ e => other '[' (by decide) (List.cons.inj e).1
  · exact fun _ e => other '\x7b' (by decide) (List.cons.inj e).1

/-- Texts as the items of an array, each on a line of its own. -/
def itemLines (texts : List (List Char)) : List Char :=
  texts.flatMap fun text => "    ".toList ++ encode text ++ ",\n".toList

private theorem itemLines_cons (text : List Char) (texts : List (List Char)) (rest : List Char) :
    itemLines (text :: texts) ++ rest =
      ' ' :: ' ' :: ' ' :: ' ' :: (encode text ++ ',' :: '\n' :: (itemLines texts ++ rest)) := by
  simp [itemLines]

private theorem skipFill_encode (s rest : List Char) :
    skipFill false (encode s ++ rest) = some (encode s ++ rest) := by
  obtain ⟨q, t, written, quote⟩ := exists_encode s
  rcases quote with rfl | rfl <;> simp [written, skipFill, isBlank, apostrophe]

private theorem encode_ne_bracket (text rest : List Char) :
    ∀ u, encode text ++ rest ≠ ']' :: u := by
  obtain ⟨q, t, written, quote⟩ := exists_encode text
  rcases quote with rfl | rfl <;> simp [written, apostrophe]

private theorem readItems_itemLines (fuel depth : Nat) (text : List Char) (texts : List (List Char))
    (rest : List Char) :
    readItems (fuel + texts.length + 2) depth
        (encode text ++ ',' :: '\n' :: (itemLines texts ++ ']' :: rest)) =
      some ((text :: texts).map fun t => .string (String.ofList t), rest) := by
  have item (fuel : Nat) (text behind : List Char) :
      readValue (fuel + 1) depth (encode text ++ ',' :: behind) =
        some (.string (String.ofList text), ',' :: behind) :=
    readValue_encode fuel depth text (by simp [Unquoted, apostrophe])
  induction texts generalizing text with
  | nil =>
    simp only [itemLines, List.flatMap_nil, List.nil_append, List.length_nil, readItems, item]
    rfl
  | cons next texts ih =>
    have more := ih next
    generalize tail : encode next ++ ',' :: '\n' :: (itemLines texts ++ ']' :: rest) = s at more
    have lines : itemLines (next :: texts) ++ ']' :: rest = ' ' :: ' ' :: ' ' :: ' ' :: s := by
      rw [itemLines_cons, tail]
    have fill : skipFill false ('\n' :: ' ' :: ' ' :: ' ' :: ' ' :: s) = some s := by
      rw [← tail]
      exact skipFill_encode next (',' :: '\n' :: (itemLines texts ++ ']' :: rest))
    have comma (t : List Char) : skipFill false (',' :: t) = some (',' :: t) := rfl
    -- The next line does not close the array, so the reader goes on with it.
    have going : ∀ t, s ≠ ']' :: t := tail ▸ encode_ne_bracket next _
    have longer : fuel + (next :: texts).length + 2 = fuel + texts.length + 1 + 1 + 1 := rfl
    rw [lines, longer, readItems, item]
    simp only [comma, fill, more, Option.bind_eq_bind, Option.bind_some]
    rfl

private theorem length_le_length_itemLines (texts : List (List Char)) :
    texts.length ≤ (itemLines texts).length := by
  induction texts with
  | nil => simp
  | cons text texts ih =>
    have lines := itemLines_cons text texts []
    rw [List.append_nil] at lines
    simp only [lines, List.length_cons, List.length_append, List.append_nil]
    omega

private theorem readValue_bracket {items : List Value} {t : List Char} {fuel : Nat} (depth : Nat)
    (fill : skipFill false s = some t) (going : ∀ u, t ≠ ']' :: u)
    (read : readItems fuel depth t = some (items, rest)) :
    readValue (fuel + 1) (depth + 1) ('[' :: s) = some (.array false items, rest) := by
  rw [readValue]
  simp only [fill, read, Option.bind_eq_bind, Option.bind_some]
  rfl

theorem readTopValue_item (text rest : List Char) :
    readTopValue ('[' :: (encode text ++ ']' :: rest)) =
      some (.array false [.string (String.ofList text)], rest) := by
  obtain ⟨fuel, enough⟩ : ∃ fuel,
      2 * ('[' :: (encode text ++ ']' :: rest)).length = fuel + 2 := by
    rw [List.length_cons]
    exact ⟨_, rfl⟩
  have item : readItems (fuel + 2) 78 (encode text ++ ']' :: rest) =
      some ([.string (String.ofList text)], rest) := by
    rw [readItems, readValue_encode fuel 78 text (by simp [Unquoted, apostrophe])]
    rfl
  rw [readTopValue, enough]
  exact readValue_bracket 78 (skipFill_encode text _) (encode_ne_bracket text _) item

theorem readTopValue_itemLines (text : List Char) (texts : List (List Char)) (rest : List Char) :
    readTopValue ('[' :: '\n' :: (itemLines (text :: texts) ++ ']' :: rest)) =
      some (.array false ((text :: texts).map fun t => .string (String.ofList t)), rest) := by
  have lines := length_le_length_itemLines (text :: texts)
  obtain ⟨fuel, enough⟩ : ∃ fuel,
      2 * ('[' :: '\n' :: (itemLines (text :: texts) ++ ']' :: rest)).length =
        fuel + texts.length + 2 := by
    simp only [List.length_cons, List.length_append] at lines ⊢
    exact ⟨_, (Nat.sub_add_cancel (m := texts.length + 2) (by omega)).symm⟩
  rw [readTopValue, enough, itemLines_cons]
  exact readValue_bracket 78 (skipFill_encode text _) (encode_ne_bracket text _)
    (readItems_itemLines fuel 78 text texts rest)

end

section

variable {fuel : Nat} {name : String} {rest : List Char} {more : List Statement}

private theorem readStatements_cons {c : Char} {s : List Char} {statement : Statement}
    (begins : isBlank c = false ∧ c ≠ '#' ∧ c ≠ '\n' ∧ c ≠ '\r')
    (here : readStatement (c :: s) = some (statement, rest))
    (read : readStatements fuel rest = some more) :
    readStatements (fuel + 1) (c :: s) = some (statement :: more) := by
  obtain ⟨blank, comment, lineFeed, carriage⟩ := begins
  rw [readStatements, skipBlanks_of_not_isBlank blank]
  split
  · next e => cases e
  · next e => exact absurd (List.cons.inj e).1 comment
  · next e => exact absurd (List.cons.inj e).1 lineFeed
  · next e => exact absurd (List.cons.inj e).1 carriage
  · simp only [here, read, Option.bind_eq_bind, Option.bind_some]
    rfl

theorem readStatements_header (bare : Bare name.toList)
    (read : readStatements fuel rest = some more) :
    readStatements (fuel + 1) ('[' :: name.toList ++ ']' :: '\n' :: rest) =
      some (.header [name] :: more) := by
  have header := readStatement_header bare rest
  rw [String.ofList_toList] at header
  exact readStatements_cons (by decide) header read

theorem readStatements_assign {text : List Char} {v : Value} (bare : Bare name.toList)
    (begins : ∀ c ∈ text.head?, isBlank c = false)
    (value : readTopValue text = some (v, '\n' :: rest))
    (read : readStatements fuel rest = some more) :
    readStatements (fuel + 1) (name.toList ++ ' ' :: '=' :: ' ' :: text) =
      some (.assign [name] v :: more) := by
  have assign := readStatement_assign bare begins value
  obtain ⟨k, key, written, isKey⟩ := bare.exists_cons
  have other (sign : Char) (no : isKeyChar sign = false) : k ≠ sign := ne_of_class isKey no
  rw [written, List.cons_append, ← written, String.ofList_toList] at assign
  rw [written, List.cons_append]
  exact readStatements_cons ⟨isBlank_of_isKeyChar isKey, other '#' (by decide),
    other '\n' (by decide), other '\r' (by decide)⟩ assign read

end

end PeerPanel.Toml
