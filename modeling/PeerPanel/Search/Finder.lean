import PeerPanel.Search.Query

/-!
A finder applies queries at once and remembers what each of them has found.

A remembered query is not searched again. Applying the empty text forgets everything.
-/

set_option autoImplicit false
set_option relaxedAutoImplicit false

namespace PeerPanel.Search

/-- The applied query, and the hits of every query that is remembered. -/
structure Finder where
  applied : Query
  known : Table Query Hits := .empty
  deriving DecidableEq

namespace Finder

/-- Whether a query can be applied without a search. -/
def knows (f : Finder) (q : Query) : Bool := q.text = "" || f.known.contains q

def hits? (f : Finder) (q : Query) : Option Hits := f.known.get? q

/-- Apply a query, searching the account unless it is remembered. -/
def apply (f : Finder) (a : Account) (q : Query) : Finder :=
  let kept := if q.text = "" then .empty else f.known
  { applied := q
    known := if kept.contains q then kept else kept.insert q (run a q) }

/-- Go back to a query put aside, with the hits it was put aside with, or those of a search. -/
def restore (f : Finder) (a : Account) (s : Saved) : Finder :=
  let hits := match s.peerHits with
    | some peer => { peer, migrated := s.migratedHits }
    | none => run a s.query
  { applied := s.query, known := f.known.insert s.query hits }

def ofSaved (a : Account) (s : Saved) : Finder := restore { applied := s.query } a s

/-- Put the applied query aside with its remembered hits. -/
def save (f : Finder) : Saved :=
  let hits := f.hits? f.applied
  { query := f.applied
    peerHits := hits.map (·.peer)
    migratedHits := hits.bind (·.migrated) }

@[simp] theorem applied_apply (f : Finder) (a : Account) (q : Query) :
    (f.apply a q).applied = q := rfl

@[simp] theorem applied_restore (f : Finder) (a : Account) (s : Saved) :
    (f.restore a s).applied = s.query := rfl

end Finder

end PeerPanel.Search
