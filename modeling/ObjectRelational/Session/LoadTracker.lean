import ObjectRelational.Table

/-!
# Counting single loads

Loading an association for one parent at a time takes a query for each. Such loads are counted for
every entity and association, and the load that reaches the threshold is reported.
-/

namespace ObjectRelational

set_option autoImplicit false

/-- An entity type and an association by their names. -/
structure AssociationName where
  entity : String
  association : String
  deriving DecidableEq, Repr

/-- The report that an association has been loaded for single parents again and again. -/
structure LoadWarning where
  name : AssociationName
  loads : Nat
  threshold : Nat
  deriving DecidableEq, Repr

structure LoadTracker where
  counts : Table AssociationName Nat := []
  threshold : Nat := 3
  enabled : Bool := true
  deriving DecidableEq, Repr

/-- A summary of counted loads. -/
structure LoadStats where
  totalLoads : Nat
  associations : Nat
  /-- How many associations have reached the threshold. -/
  suspicious : Nat
  deriving DecidableEq, Repr

namespace LoadTracker

def standard : LoadTracker := {}

/-- Reports the load of a given number; at least the first. -/
def withThreshold (tracker : LoadTracker) (threshold : Nat) : LoadTracker :=
  { tracker with threshold := max threshold 1 }

/-- Turns counting on or off; counts are kept. -/
def withEnabled (tracker : LoadTracker) (enabled : Bool) : LoadTracker :=
  { tracker with enabled }

def count (tracker : LoadTracker) (name : AssociationName) : Nat :=
  (Table.get? tracker.counts name).getD 0

/-- Counts a load, and reports it if it reaches the threshold. -/
def record (tracker : LoadTracker) (name : AssociationName) :
    Option LoadWarning × LoadTracker :=
  if tracker.enabled then
    let loads := tracker.count name + 1
    let warning :=
      if loads = tracker.threshold then some ⟨name, loads, tracker.threshold⟩ else none
    (warning, { tracker with counts := Table.put tracker.counts name loads })
  else (none, tracker)

/-- Counts a number of loads, and gives the reports in order. -/
def recordTimes (tracker : LoadTracker) (name : AssociationName) :
    Nat → List LoadWarning × LoadTracker
  | 0 => ([], tracker)
  | n + 1 =>
      let (warnings, before) := recordTimes tracker name n
      let (warning, after) := before.record name
      (warnings ++ warning.toList, after)

/-- How many places of origin are kept for an association. -/
def siteLimit : Nat := 5

/-- The number of places of origin kept: one for each load up to the limit. -/
def sites (tracker : LoadTracker) (name : AssociationName) : Nat :=
  min (tracker.count name) siteLimit

def stats (tracker : LoadTracker) : LoadStats where
  totalLoads := tracker.counts.foldl (fun total entry => total + entry.2) 0
  associations := tracker.counts.length
  suspicious := (tracker.counts.filter fun entry => tracker.threshold ≤ entry.2).length

/-- Forgets all counts. -/
def reset (tracker : LoadTracker) : LoadTracker :=
  { tracker with counts := [] }

end LoadTracker

end ObjectRelational
