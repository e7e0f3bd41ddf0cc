/-!
Values of the TOML format.

Of floats, truth values and dates only the kind is kept. A table remembers how it came to be, for
that decides what may still be put into it.
-/

set_option autoImplicit false
set_option relaxedAutoImplicit false

namespace PeerPanel.Toml

/-- How a table came to be. -/
inductive TableForm
  /-- Written between braces, and complete. -/
  | inline
  /-- Named by a header of its own. -/
  | header
  /-- Named only inside the longer name of a header. -/
  | implied
  /-- Named by a key with dots. -/
  | dotted
  deriving DecidableEq

/-- A value. An array that is open was made by headers and can be added to. -/
inductive Value
  | string (s : String)
  | integer (n : Int)
  | float
  | boolean
  | datetime
  | array (isOpen : Bool) (items : List Value)
  | table (form : TableForm) (entries : List (String × Value))

/-- The keys of a table with their values, in the order of their first mention. -/
abbrev Entries := List (String × Value)

/-- Put a value in the place of the one that a key has. -/
def replace (key : String) (v : Value) : Entries → Entries
  | [] => []
  | (k, old) :: rest => if k = key then (k, v) :: rest else (k, old) :: replace key v rest

end PeerPanel.Toml
