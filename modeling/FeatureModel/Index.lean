/-!
# Indexes

An index is a finite map kept as a list of keys with their values, in the order
in which the keys were first used.  `put` changes the value under one key and
leaves every other key alone; `emplace` leaves a key alone that has a value.
-/

namespace FeatureModel

structure Index (key : Type) (value : Type) where
  entries : List (key × value) := []
deriving DecidableEq, Repr

namespace Index

variable {key value : Type} [DecidableEq key]

def empty : Index key value :=
  {}

def findEntry (k : key) : List (key × value) -> Option value
  | [] => none
  | entry :: rest => if k = entry.1 then some entry.2 else findEntry k rest

def lookup? (index : Index key value) (k : key) : Option value :=
  findEntry k index.entries

def putEntry (k : key) (v : value) : List (key × value) -> List (key × value)
  | [] => [(k, v)]
  | entry :: rest => if k = entry.1 then (k, v) :: rest else entry :: putEntry k v rest

def put (index : Index key value) (k : key) (v : value) : Index key value where
  entries := putEntry k v index.entries

/-- Puts a value under a key that has none yet; a key keeps the value that it has. -/
def emplace (index : Index key value) (k : key) (v : value) : Index key value :=
  if (index.lookup? k).isSome then index else index.put k v

@[simp] theorem lookup?_empty (k : key) : (empty : Index key value).lookup? k = none :=
  rfl

private theorem findEntry_putEntry (k j : key) (v : value) (entries : List (key × value)) :
    findEntry j (putEntry k v entries) = if j = k then some v else findEntry j entries := by
  induction entries with
  | nil => rfl
  | cons entry rest ih =>
      by_cases hk : k = entry.1
      · by_cases hj : j = k <;> simp [putEntry, findEntry, <- hk, hj]
      · by_cases hj : j = entry.1
        · simp [putEntry, findEntry, hk, hj, Ne.symm hk]
        · simp [putEntry, findEntry, hk, hj, ih]

theorem lookup?_put (index : Index key value) (k j : key) (v : value) :
    (index.put k v).lookup? j = if j = k then some v else index.lookup? j :=
  findEntry_putEntry k j v index.entries

theorem lookup?_emplace (index : Index key value) (k j : key) (v : value) :
    (index.emplace k v).lookup? j =
      if j = k then (index.lookup? k).or (some v) else index.lookup? j := by
  unfold emplace
  cases hk : index.lookup? k with
  | none => exact lookup?_put index k j v
  | some old =>
      by_cases hj : j = k
      · simp [hj, hk]
      · simp [hj]

end Index
end FeatureModel
