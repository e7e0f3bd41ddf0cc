import PeerPanel.Config.Format
import PeerPanel.FileTree

/-!
The directory that keeps the configuration in a file.

Opening a directory makes it. Saving turns the configuration into a text before it touches the
file. Both hand back the tree that they leave, also where they fail. Loading takes the defaults
where there is no file yet.
-/

set_option autoImplicit false
set_option relaxedAutoImplicit false

namespace PeerPanel

/-- The directory of the configuration. -/
structure ConfigDirectory where
  path : Path
  deriving DecidableEq

namespace ConfigDirectory

/-- Open a directory, making it and what it lies in. What was made stays if it cannot be opened. -/
def openIn (t : FileTree) (path : Path) : Except ConfigError ConfigDirectory × FileTree :=
  match t.makeDirectories path with
  | (true, t) => (.ok { path }, t)
  | (false, t) => (.error .io, t)

/-- The directory of the user: in the configuration directory that the environment names, or else in
the hidden one at home. -/
def ofUser (home : Path) (configHome : Option Path) : Path :=
  (configHome.getD (home.join [".config"])).join ["infopanel"]

def file (d : ConfigDirectory) : Path := d.path.join ["config.toml"]

def load (d : ConfigDirectory) (t : FileTree) : Except ConfigError Config :=
  if t.contains d.file then
    match t.read? d.file with
    | some text =>
      match Config.parse? text with
      | some c => .ok c
      | none => .error .parse
    | none => .error .io
  else .ok {}

def save (d : ConfigDirectory) (t : FileTree) (c : Config) : Except ConfigError Unit × FileTree :=
  match c.render with
  | .ok text =>
    match t.write d.file (.text text) with
    | (true, t) => (.ok (), t)
    | (false, t) => (.error .io, t)
  | .error e => (.error e, t)

end ConfigDirectory

end PeerPanel
