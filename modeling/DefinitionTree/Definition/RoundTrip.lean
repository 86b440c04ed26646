/-
DefinitionTree/Definition/RoundTrip.lean

Fetching, deploying and fetching again.

A value is stable if fetching what was deployed gives the canonical value that
was deployed.  What the instance holds beside the deployed fields stays as it
was.
-/
import DefinitionTree.Definition.Deploy
import DefinitionTree.Tree.Agreement

namespace DefinitionTree

/-- What a round trip comes to. -/
structure RoundTrip where
  /-- the value after fetching -/
  canonical : Entries
  /-- the value to deploy -/
  deployed : Entries
  /-- fetching again gives the same canonical value -/
  isStable : Bool
deriving Repr

/-- Fetches, deploys and fetches again. -/
def roundTrip (settings : Settings) (lookup : Option Lookup) (kind : Kind) (name : Option String)
    (value : Entries) : Journal RoundTrip := do
  let canonical ← fetch settings lookup kind name value
  let deployed ← Journal.of (deploy settings kind name canonical)
  let again ← fetch settings lookup kind name (value.overlay deployed)
  return ⟨canonical, deployed, (Tree.map again).agrees (.map canonical)⟩

/-- The round trip of any tree.  Pairs can be fetched and deployed, but there is
no mapping to set the deployed fields in. -/
def roundTripTree (settings : Settings) (lookup : Option Lookup) (kind : Kind)
    (name : Option String) : Tree → Journal RoundTrip
  | .map es => roundTrip settings lookup kind name es
  | t => do
    let value ← Journal.of (t.instanceEntries name)
    let canonical ← fetch settings lookup kind name value
    discard (Journal.of (deploy settings kind name canonical))
    throw .noEntries

end DefinitionTree
