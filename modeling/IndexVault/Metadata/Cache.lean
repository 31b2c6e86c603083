import IndexVault.Metadata.Registry

/-! The read-through cache of indexes. A lookup is three steps: it probes the cache, reads the
registry on a miss, and stores what it read unless something was evicted in between. -/
namespace IndexVault

/-- Indexes by public id, and a number that every eviction changes. -/
structure IndexCache where
  entries : SortedMap String Index := ∅
  generation : UInt64 := 0

namespace IndexCache

/-- What a probe answers: the cached index, or the generation to remember for storing. -/
inductive Probe where
  | hit (index : Index)
  | miss (generation : UInt64)

/-- The first step of a lookup. -/
def probe (c : IndexCache) (publicId : String) : Probe :=
  match c.entries.get? publicId with
  | some index => .hit index
  | none => .miss c.generation

/-- The last step of a lookup: keeps a row that was read, unless the generation has changed. -/
def store (c : IndexCache) (publicId : String) (generation : UInt64) (row : Option Index) :
    IndexCache :=
  match row with
  | some index =>
    if c.generation = generation then { c with entries := c.entries.insert publicId index } else c
  | none => c

def evict (c : IndexCache) (publicId : String) : IndexCache :=
  { entries := c.entries.erase publicId, generation := c.generation + 1 }

/-- A lookup whose steps follow each other directly. -/
def lookup (c : IndexCache) (r : Registry) (publicId : String) :
    IndexCache × Except Failure (Option Index) :=
  match c.probe publicId with
  | .hit index => (c, .ok (some index))
  | .miss generation =>
    match r.get? publicId with
    | .ok row => (c.store publicId generation row, .ok row)
    | .error e => (c, .error e)

end IndexCache

end IndexVault
