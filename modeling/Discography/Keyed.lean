/-!
# Lists sorted by key

Associations of texts with values in the order of the keys, each key once. A value that is put under
a key replaces the value there.

## Main definitions

* `Keyed.insert`: a value put under a key
* `Keyed.ofList`: the last value of every key of a list
-/

namespace Discography.Keyed

variable {α : Type}

/-- Puts a value under a key of a list with sorted keys, in the place of the value there. -/
def insert (key : String) (v : α) : List (String × α) → List (String × α)
  | [] => [(key, v)]
  | (k, w) :: rest =>
    if key = k then (key, v) :: rest
    else if key < k then (key, v) :: (k, w) :: rest
    else (k, w) :: insert key v rest

/-- The last value of every key, sorted by key. -/
def ofList (entries : List (String × α)) : List (String × α) :=
  entries.foldl (fun sorted (key, v) => insert key v sorted) []

end Discography.Keyed
