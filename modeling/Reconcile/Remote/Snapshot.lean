import Reconcile.Collection.SortedSet
import Reconcile.Properties
import Reconcile.Urn.Implied
/-!
Resources as the remote reports them, and a frozen view of the part of the account that a plan
needs to see.
-/

namespace Reconcile

structure Record where
  urn : Urn
  properties : Properties

/-- What the remote holds, by address, and the types that were looked for. -/
structure Snapshot where
  records : SortedMap Urn Properties
  fetched : SortedSet ResourceType

namespace Snapshot

def empty : Snapshot := ⟨.empty, .empty⟩

def insert (s : Snapshot) (r : Record) : Snapshot :=
  { s with records := s.records.insert r.urn r.properties }

/-- Add what was reported when resources of a type were looked for; others are ignored. -/
def addListing (s : Snapshot) (type : ResourceType) (records : List Record) : Snapshot :=
  (records.filter fun r => r.urn.type == type).foldl insert
    { s with fetched := s.fetched.insert type }

def ofRecords (records : List Record) : Snapshot :=
  records.foldl (fun s r => { s.insert r with fetched := s.fetched.insert r.urn.type }) empty

def get? (s : Snapshot) (urn : Urn) : Option Properties := s.records.get? urn

def contains (s : Snapshot) (urn : Urn) : Bool := s.records.contains urn

def toList (s : Snapshot) : List Record := s.records.entries.map fun e => ⟨e.1, e.2⟩

def ofType (s : Snapshot) (type : ResourceType) : List Record :=
  s.toList.filter fun r => r.urn.type == type

end Snapshot
end Reconcile
