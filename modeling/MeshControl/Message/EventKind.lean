/-!
The kinds of events that a peer can subscribe to, each with a bit of its own, and sets of kinds.
-/

namespace MeshControl

inductive EventKind where
  | state
  | partition
  | role
  | service
  | onMeshPrefix
deriving DecidableEq, Repr

namespace EventKind

/-- Every kind, in the order of their bits. -/
def all : List EventKind := [state, partition, role, service, onMeshPrefix]

def bit : EventKind → UInt32
  | state => 1
  | partition => 2
  | role => 4
  | service => 8
  | onMeshPrefix => 16

def ofBit? (bits : UInt32) : Option EventKind :=
  all.find? (·.bit = bits)

@[simp] theorem ofBit?_bit (kind : EventKind) : ofBit? kind.bit = some kind := by
  cases kind <;> rfl

def name : EventKind → String
  | state => "State"
  | partition => "PartitionId"
  | role => "Role"
  | service => "Service"
  | onMeshPrefix => "Prefix"

def bitName : EventKind → String
  | state => "STATE"
  | partition => "PARTITION_ID"
  | role => "ROLE"
  | service => "SERVICE"
  | onMeshPrefix => "PREFIX"

end EventKind

@[ext] structure EventSet where
  state : Bool := false
  partition : Bool := false
  role : Bool := false
  service : Bool := false
  onMeshPrefix : Bool := false
deriving DecidableEq, Repr

namespace EventSet

def empty : EventSet := {}

def contains (set : EventSet) : EventKind → Bool
  | .state => set.state
  | .partition => set.partition
  | .role => set.role
  | .service => set.service
  | .onMeshPrefix => set.onMeshPrefix

def insert (set : EventSet) : EventKind → EventSet
  | .state => { set with state := true }
  | .partition => { set with partition := true }
  | .role => { set with role := true }
  | .service => { set with service := true }
  | .onMeshPrefix => { set with onMeshPrefix := true }

def single (kind : EventKind) : EventSet := empty.insert kind

/-- The kinds of both sets. -/
def union (left right : EventSet) : EventSet where
  state := left.state || right.state
  partition := left.partition || right.partition
  role := left.role || right.role
  service := left.service || right.service
  onMeshPrefix := left.onMeshPrefix || right.onMeshPrefix

/-- The kinds of a set, in the order of their bits. -/
def toList (set : EventSet) : List EventKind :=
  EventKind.all.filter set.contains

/-- The sum of the bits of a set's kinds. -/
def bits (set : EventSet) : Nat :=
  set.toList.foldr (fun kind bits => kind.bit.toNat + bits) 0

@[simp] theorem contains_empty (kind : EventKind) : empty.contains kind = false := by
  cases kind <;> rfl

@[simp] theorem contains_insert (set : EventSet) (added kind : EventKind) :
    (set.insert added).contains kind = (decide (kind = added) || set.contains kind) := by
  cases added <;> cases kind <;> simp [insert, contains]

@[simp] theorem contains_union (left right : EventSet) (kind : EventKind) :
    (left.union right).contains kind = (left.contains kind || right.contains kind) := by
  cases kind <;> rfl

end EventSet

end MeshControl
