import PeerPanel.Config.Basic
import PeerPanel.Toml.Statement

/-!
The configuration as a text.

It is written as two tables of a TOML document, each with all of its keys. Reading takes any
document: unknown keys are passed over and missing ones keep their defaults. A table may also be
given as an array of its values in their order, cut short or with more behind them, and a date
stands for a table with an unknown key.
-/

set_option autoImplicit false
set_option relaxedAutoImplicit false

namespace PeerPanel

open Toml (Value Entries)

/-- The value of a key, or the default where there is none. -/
def fieldOr {α : Type} (read : Value → Option α) (default : α) : Option Value → Option α
  | some v => read v
  | none => some default

def Toml.Value.asNat? : Value → Option Nat
  | integer n => if 0 ≤ n then some n.toNat else none
  | _ => none

def Toml.Value.asString? : Value → Option String
  | string s => some s
  | _ => none

/-- Whether a value is an array or a table without anything in it. -/
def Toml.Value.isVoid : Value → Bool
  | array _ [] => true
  | table _ [] => true
  | _ => false

/-- A media list by its name, or by a table whose one key is the name and holds nothing. -/
def Toml.Value.asKind? : Value → Option MediaKind
  | string s => MediaKind.ofName? s
  | table _ [(key, v)] => if v.isVoid then MediaKind.ofName? key else none
  | _ => none

def Toml.Value.asKinds? : Value → Option (List MediaKind)
  | array _ items => items.mapM (·.asKind?)
  | _ => none

namespace SearchConfig

/-- The settings that the values of the two keys give. -/
def ofFields? (delay searchable : Option Value) : Option SearchConfig := do
  let defaults : SearchConfig := {}
  pure
    { delayMs := ← fieldOr (·.asNat?) defaults.delayMs delay
      searchable := ← fieldOr (·.asKinds?) defaults.searchable searchable }

def ofValue? : Value → Option SearchConfig
  | .table _ entries => ofFields? (entries.lookup "delay_ms") (entries.lookup "searchable_media")
  | .array _ items => ofFields? items[0]? items[1]?
  | .datetime => some {}
  | _ => none

end SearchConfig

namespace LogConfig

def ofField? (filter : Option Value) : Option LogConfig := do
  let defaults : LogConfig := {}
  pure { filter := ← fieldOr (·.asString?) defaults.filter filter }

def ofValue? : Value → Option LogConfig
  | .table _ entries => ofField? (entries.lookup "filter")
  | .array _ items => ofField? items[0]?
  | .datetime => some {}
  | _ => none

end LogConfig

namespace Config

/-- The configuration that the table of a document gives. -/
def ofEntries? (entries : Entries) : Option Config := do
  pure
    { search := ← fieldOr SearchConfig.ofValue? {} (entries.lookup "search")
      log := ← fieldOr LogConfig.ofValue? {} (entries.lookup "logging") }

def parse? (text : String) : Option Config := do
  let statements ← Toml.statements? text.toList
  ofEntries? (← Toml.ofStatements? statements)

/-- Write media lists: on one line if there is at most one, else each on a line of its own. -/
def encodeKinds (kinds : List MediaKind) : List Char :=
  let item (k : MediaKind) : List Char := Toml.encode k.name.toList
  match kinds with
  | [] => "[]".toList
  | [k] => ['['] ++ item k ++ [']']
  | ks => "[\n".toList ++ ks.flatMap (fun k => "    ".toList ++ item k ++ ",\n".toList) ++ [']']

def encode (c : Config) : List Char :=
  "[search]\ndelay_ms = ".toList ++ (toString c.search.delayMs).toList ++
    "\nsearchable_media = ".toList ++ encodeKinds c.search.searchable ++
    "\n\n[logging]\nfilter = ".toList ++ Toml.encode c.log.filter.toList ++ ['\n']

/-- Write a configuration. The format has no number above the signed 64-bit ones, and quotes in a
row are counted in 8 bits. -/
def render (c : Config) : Except ConfigError String :=
  if 9223372036854775807 < c.search.delayMs then .error .serialize
  else if Toml.isCountable c.log.filter.toList then .ok (String.ofList c.encode)
  else .error (.fault .addition)

end Config

end PeerPanel
