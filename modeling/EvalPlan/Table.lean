/-!
# Ordered tables

Tables list their rows in the order in which the keys first came. Putting a value under a key that
is present replaces the value and keeps the row where it is.
-/

namespace EvalPlan

/-- The rows of a table, one per key. -/
abbrev Table (α β : Type) := List (α × β)

namespace Table

variable {α β : Type} [BEq α]

/-- The value under a key. -/
def get? (t : Table α β) (k : α) : Option β :=
  match t with
  | [] => none
  | (k', v) :: rest => if k' == k then some v else get? rest k

/-- The key has a row. -/
def has (t : Table α β) (k : α) : Bool := (t.get? k).isSome

/-- Puts a value under a key. -/
def put (t : Table α β) (k : α) (v : β) : Table α β :=
  match t with
  | [] => [(k, v)]
  | (k', v') :: rest => if k' == k then (k', v) :: rest else (k', v') :: put rest k v

/-- Takes the row of a key away. -/
def erase (t : Table α β) (k : α) : Table α β :=
  match t with
  | [] => []
  | (k', v') :: rest => if k' == k then rest else (k', v') :: erase rest k

/-- Puts rows one after another. -/
def putAll (t : Table α β) (rows : List (α × β)) : Table α β :=
  rows.foldl (fun t row => t.put row.1 row.2) t

/-- The keys in their order. -/
def keys (t : Table α β) : List α := t.map (·.1)

end Table

end EvalPlan
