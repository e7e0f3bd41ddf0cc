import PeerPanel.Message

/-!
The configuration of panels: how long a search waits, which media lists can be searched, and the
filter of the log.
-/

set_option autoImplicit false
set_option relaxedAutoImplicit false

namespace PeerPanel

/-- The settings of the search. -/
structure SearchConfig where
  delayMs : Nat := 200
  searchable : List MediaKind := [.musicFile, .file, .link]
  deriving DecidableEq

def SearchConfig.allows (c : SearchConfig) (kind : MediaKind) : Bool := kind ∈ c.searchable

/-- The settings of the log. -/
structure LogConfig where
  filter : String := "infopanel=debug"
  deriving DecidableEq

/-- All settings. -/
structure Config where
  search : SearchConfig := {}
  log : LogConfig := {}
  deriving DecidableEq

/-- Why a configuration cannot be written, loaded or saved. -/
inductive ConfigError
  | noDirectory
  | io
  | parse
  | serialize
  | fault (f : Fault)
  deriving DecidableEq

end PeerPanel
