import PeerPanel.Config.Format
import PeerPanel.Proofs.Toml.Statement

/-!
A configuration is read back from the text that it is written as.

The lines of the text are read one after the other, and the two tables that they make give the
configuration again. Main statement: `written_config_reads_back`, which also says when a
configuration has a text.
-/

set_option autoImplicit false
set_option relaxedAutoImplicit false

namespace PeerPanel.Config

open Toml (Value Entries Bare apostrophe)

private theorem readTopValue_encodeKinds (kinds : List MediaKind) (rest : List Char) :
    Toml.readTopValue (encodeKinds kinds ++ rest) =
      some (.array false (kinds.map fun k => .string k.name), rest) := by
  match kinds with
  | [] => rfl
  | [k] => simpa [encodeKinds] using Toml.readTopValue_item k.name.toList rest
  | k :: l :: ks =>
    have lines := Toml.readTopValue_itemLines k.name.toList ((l :: ks).map (·.name.toList)) rest
    simpa [encodeKinds, Toml.itemLines, List.flatMap_map, Function.comp_def] using lines

private theorem isBlank_of_mem_head?_encodeKinds {kinds : List MediaKind} {rest : List Char} :
    ∀ c ∈ (encodeKinds kinds ++ rest).head?, Toml.isBlank c = false := by
  match kinds with
  | [] => rintro c ⟨⟩; rfl
  | [k] => rintro c ⟨⟩; rfl
  | k :: l :: ks => rintro c ⟨⟩; rfl

private theorem encode_eq (c : Config) :
    c.encode =
      '[' :: "search".toList ++ ']' :: '\n' ::
        ("delay_ms".toList ++ ' ' :: '=' :: ' ' :: ((toString c.search.delayMs).toList ++ '\n' ::
        ("searchable_media".toList ++ ' ' :: '=' :: ' ' :: (encodeKinds c.search.searchable ++
          '\n' :: '\n' ::
        ('[' :: "logging".toList ++ ']' :: '\n' ::
        ("filter".toList ++ ' ' :: '=' :: ' ' ::
          (Toml.encode c.log.filter.toList ++ ['\n']))))))) := by
  have first : "[search]\ndelay_ms = ".toList =
      '[' :: "search".toList ++ ']' :: '\n' :: ("delay_ms".toList ++ [' ', '=', ' ']) := rfl
  have second : "\nsearchable_media = ".toList =
      '\n' :: ("searchable_media".toList ++ [' ', '=', ' ']) := rfl
  have third : "\n\n[logging]\nfilter = ".toList = '\n' :: '\n' ::
      ('[' :: "logging".toList ++ ']' :: '\n' :: ("filter".toList ++ [' ', '=', ' '])) := rfl
  unfold encode
  rw [first, second, third]
  generalize "search".toList = search
  generalize "delay_ms".toList = delay
  generalize "searchable_media".toList = searchable
  generalize "logging".toList = logging
  generalize "filter".toList = filter
  simp only [List.append_assoc, List.cons_append, List.nil_append]

/-- The lines of a configuration. -/
def lines (c : Config) : List Toml.Statement :=
  [.header ["search"], .assign ["delay_ms"] (.integer c.search.delayMs),
    .assign ["searchable_media"] (.array false (c.search.searchable.map fun k => .string k.name)),
    .header ["logging"], .assign ["filter"] (.string c.log.filter)]

private theorem statements?_encode {c : Config} (fits : c.search.delayMs ≤ 9223372036854775807) :
    Toml.statements? c.encode = some c.lines := by
  have bare : Bare "search".toList ∧ Bare "delay_ms".toList ∧ Bare "searchable_media".toList ∧
      Bare "logging".toList ∧ Bare "filter".toList := by decide
  obtain ⟨search, delay, searchable, logging, filter⟩ := bare
  have long : 6 ≤ c.encode.length := by
    rw [encode_eq]
    simp only [List.length_append, List.length_cons]
    omega
  obtain ⟨n, enough⟩ : ∃ n, c.encode.length + 1 = n + 7 := Nat.exists_eq_add_of_le' (by omega)
  have unmarked : Toml.statements? c.encode = Toml.readStatements (n + 7) c.encode := by
    rw [← enough, encode_eq]
    rfl
  rw [unmarked, encode_eq]
  refine Toml.readStatements_header search ?_
  refine Toml.readStatements_assign delay ?_ (Toml.readValue_toString _ 79 fits (by decide) _) ?_
  · exact Toml.isBlank_of_mem_head?_toString
  refine Toml.readStatements_assign searchable ?_ (readTopValue_encodeKinds _ _) ?_
  · exact isBlank_of_mem_head?_encodeKinds
  -- The blank line between the tables takes one step more.
  refine Toml.readStatements_header logging ?_
  refine Toml.readStatements_assign filter ?_ ?_ (rfl : Toml.readStatements (n + 1) [] = some [])
  · exact Toml.isBlank_of_mem_head?_encode
  · have read := Toml.readValue_encode (2 * (Toml.encode c.log.filter.toList ++ ['\n']).length) 79
      c.log.filter.toList (show Toml.Unquoted ['\n'] by simp [Toml.Unquoted, apostrophe])
    rwa [String.ofList_toList] at read

private theorem mapM_asKind? (kinds : List MediaKind) :
    (kinds.map fun k => Value.string k.name).mapM (·.asKind?) = some kinds := by
  induction kinds with
  | nil => rfl
  | cons k kinds ih =>
    have here : (Value.string k.name).asKind? = some k := MediaKind.ofName?_name k
    rw [List.map_cons, List.mapM_cons, here, ih]
    rfl

/-- The table of the search with both of its keys. -/
def searchTable (c : SearchConfig) : Value :=
  .table .header [("delay_ms", .integer c.delayMs),
    ("searchable_media", .array false (c.searchable.map fun k => .string k.name))]

def logTable (c : LogConfig) : Value := .table .header [("filter", .string c.filter)]

private theorem ofValue?_searchTable (c : SearchConfig) :
    SearchConfig.ofValue? (searchTable c) = some c := by
  have read : SearchConfig.ofValue? (searchTable c) =
      SearchConfig.ofFields? (some (.integer c.delayMs))
        (some (.array false (c.searchable.map fun k => .string k.name))) := rfl
  have delay : (Value.integer c.delayMs).asNat? = some c.delayMs := by simp [Value.asNat?]
  have kinds : (Value.array false (c.searchable.map fun k => .string k.name)).asKinds? =
      some c.searchable := mapM_asKind? c.searchable
  simp [read, SearchConfig.ofFields?, fieldOr, delay, kinds]

private theorem ofValue?_logTable (c : LogConfig) : LogConfig.ofValue? (logTable c) = some c := rfl

theorem ofStatements?_lines (c : Config) :
    Toml.ofStatements? c.lines =
      some [("search", searchTable c.search), ("logging", logTable c.log)] :=
  rfl

private theorem ofEntries?_tables (c : Config) :
    ofEntries? [("search", searchTable c.search), ("logging", logTable c.log)] = some c := by
  have lookups : ofEntries? [("search", searchTable c.search), ("logging", logTable c.log)] =
      (SearchConfig.ofValue? (searchTable c.search)).bind fun search =>
        (LogConfig.ofValue? (logTable c.log)).bind fun log => some { search, log } := rfl
  rw [lookups, ofValue?_searchTable, ofValue?_logTable]
  rfl

private theorem parse?_encode {c : Config} (fits : c.search.delayMs ≤ 9223372036854775807) :
    parse? (String.ofList c.encode) = some c := by
  rw [parse?, String.toList_ofList, statements?_encode fits]
  simp only [Option.bind_eq_bind, Option.bind_some, ofStatements?_lines]
  exact ofEntries?_tables c

private theorem render_eq_ok_iff {c : Config} {text : String} :
    c.render = .ok text ↔ c.search.delayMs ≤ 9223372036854775807 ∧
      Toml.isCountable c.log.filter.toList = true ∧ String.ofList c.encode = text := by
  unfold render
  split
  · simp
    omega
  · next fits =>
    have fits : c.search.delayMs ≤ 9223372036854775807 := by omega
    split
    · next countable => simp [fits, countable]
    · next many => simp [many]

theorem exists_render_eq_ok_iff {c : Config} :
    (∃ text, c.render = .ok text) ↔ c.search.delayMs ≤ 9223372036854775807 ∧
      ∀ quote ∈ ['"', apostrophe], ¬ List.replicate 256 quote <:+: c.log.filter.toList := by
  rw [← Toml.isCountable_iff]
  constructor
  · rintro ⟨text, written⟩
    obtain ⟨fits, countable, -⟩ := render_eq_ok_iff.mp written
    exact ⟨fits, countable⟩
  · rintro ⟨fits, countable⟩
    exact ⟨_, render_eq_ok_iff.mpr ⟨fits, countable, rfl⟩⟩

theorem parse?_of_render_eq_ok {c : Config} {text : String} (written : c.render = .ok text) :
    parse? text = some c := by
  obtain ⟨fits, -, rfl⟩ := render_eq_ok_iff.mp written
  exact parse?_encode fits

theorem render_eq_serialize_iff {c : Config} :
    c.render = .error .serialize ↔ 9223372036854775807 < c.search.delayMs := by
  unfold render
  split
  · next large => simp [large]
  · next fits => split <;> simp [fits]

/-- Whatever its filter, a configuration whose delay the format has is read back from the lines that
stand for it. It is written unless 256 equal quotes in a row are too many to count. -/
theorem written_config_reads_back (c : Config) :
    (c.render = .error .serialize ↔ 9223372036854775807 < c.search.delayMs) ∧
      (c.search.delayMs ≤ 9223372036854775807 → parse? (String.ofList c.encode) = some c) ∧
      ((∃ text, c.render = .ok text) ↔ c.search.delayMs ≤ 9223372036854775807 ∧
        ∀ quote ∈ ['"', apostrophe], ¬ List.replicate 256 quote <:+: c.log.filter.toList) ∧
      ∀ text, c.render = .ok text → parse? text = some c := by
  exact ⟨render_eq_serialize_iff, parse?_encode, exists_render_eq_ok_iff,
    fun _ => parse?_of_render_eq_ok⟩

/-- A configuration whose filter needs every rule of the quotes. -/
def crowded : Config :=
  { search := { delayMs := 9223372036854775807, searchable := [.pinned, .gif, .pinned] }
    log := { filter := "\n\"\"\"\"\x27\x27\x27\x27\\ \t\r\x00\x7f\n\"" } }

theorem crowded_reads_back :
    ∃ text, crowded.render = .ok text ∧ parse? text = some crowded := by
  have countable : Toml.isCountable crowded.log.filter.toList = true := by decide +kernel
  obtain ⟨text, written⟩ := (written_config_reads_back crowded).2.2.1.mpr
    ⟨Nat.le_refl _, Toml.isCountable_iff.mp countable⟩
  exact ⟨text, written, (written_config_reads_back crowded).2.2.2 text written⟩

/-- The default settings with a filter of 256 quotes. -/
def quoted : Config := { log := { filter := String.ofList (List.replicate 256 '"') } }

theorem quotes_overflow :
    quoted.search.delayMs ≤ 9223372036854775807 ∧ quoted.render = .error (.fault .addition) := by
  have filter : quoted.log.filter.toList = List.replicate 256 '"' := String.toList_ofList
  have many : ¬ Toml.isCountable quoted.log.filter.toList = true := fun countable =>
    Toml.isCountable_iff.mp countable '"' List.mem_cons_self (filter ▸ List.infix_refl _)
  have fits : ¬ 9223372036854775807 < quoted.search.delayMs := by decide
  exact ⟨Nat.le_of_not_lt fits, by rw [render, if_neg fits, if_neg many]⟩

end PeerPanel.Config
