import ApprovedOps.Record.Basic

/-! # The queue before the writer

Records wait in a bounded queue until the writer takes them. Every entry that was put counts as
unfinished until whoever took it has reported it as done.
-/

namespace ApprovedOps

/-- An entry of the queue. -/
inductive Entry where
  /-- A record to be saved. -/
  | record (r : Record)
  /-- The mark at which the writer ends. -/
  | stop
  deriving DecidableEq, Repr

/-- The queue before the writer. -/
structure Queue where
  /-- How many entries it holds at most; none for any number. -/
  capacity : Option Nat
  /-- The entries, the next one first. -/
  entries : List Entry := []
  /-- How many entries have been put and not reported as done. -/
  unfinished : Nat := 0
  deriving DecidableEq, Repr

namespace Queue

/-- The empty queue of a size; zero and less stand for any number of entries. -/
def ofSize (size : Int) : Queue :=
  ⟨if 0 < size then some size.toNat else none, [], 0⟩

/-- Is there room for an entry? -/
def hasRoom (q : Queue) : Bool :=
  q.capacity.all (q.entries.length < ·)

/-- Puts an entry at the end, if there is room. -/
def put? (q : Queue) (e : Entry) : Option Queue :=
  if q.hasRoom then
    some { q with entries := q.entries ++ [e], unfinished := q.unfinished + 1 }
  else
    none

/-- Takes the next entry. -/
def take? (q : Queue) : Option (Entry × Queue) :=
  match q.entries with
  | [] => none
  | e :: entries => some (e, { q with entries })

/-- Reports an entry as done. -/
def done (q : Queue) : Queue :=
  { q with unfinished := q.unfinished - 1 }

end Queue

end ApprovedOps
