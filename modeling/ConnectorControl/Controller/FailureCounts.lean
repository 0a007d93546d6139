import ConnectorControl.Table

/-!
# Consecutive failures

How often passes have failed since the last one that succeeded, by a key of the Connector.  A count
stays at the largest number of 32 bits once it is there.
-/

namespace ConnectorControl

structure FailureCounts where
  counts : Table String Nat

namespace FailureCounts

def empty : FailureCounts := ⟨∅⟩

/-- the key of a Connector -/
def key (ns name : String) : String := ns ++ "/" ++ name

def most : Nat := Nat.pow 2 32 - 1

def count (f : FailureCounts) (k : String) : Nat := (f.counts.find? k).getD 0

/-- counts one more failure -/
def record (f : FailureCounts) (k : String) : FailureCounts :=
  ⟨f.counts.insert k (min most (f.count k + 1))⟩

/-- forgets the failures -/
def reset (f : FailureCounts) (k : String) : FailureCounts := ⟨f.counts.erase k⟩

theorem count_record (f : FailureCounts) (j k : String) :
    (f.record j).count k = if k = j then min most (f.count j + 1) else f.count k := by
  simp only [count, record, Table.find?_insert]
  split <;> simp

theorem count_reset (f : FailureCounts) (j k : String) :
    (f.reset j).count k = if k = j then 0 else f.count k := by
  simp only [count, reset, Table.find?_erase]
  split <;> simp

end FailureCounts
end ConnectorControl
