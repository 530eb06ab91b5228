import Mathlib.Data.List.Basic

/-!
# Items grouped by key in one array

Items with small keys are laid out so that the items of one key are contiguous and keep
their order: count the items of each key, sum the counts to offsets, then place each item
at the next free slot of its key. Arrays are functions on indices.
-/

namespace RtRuntime

/-- `offsets k` is the first slot of key `k`, `offsets (k + 1)` the first slot behind it. -/
structure Buckets where
  offsets : ℕ → ℕ := fun _ => 0
  slots : ℕ → ℕ := fun _ => 0

namespace Buckets

/-- Counts of the keys, each stored one place up. -/
def countKeys (keys : List ℕ) : ℕ → ℕ :=
  keys.foldl (fun counts k => Function.update counts (k + 1) (counts (k + 1) + 1)) fun _ => 0

/-- Running sums in place, up to index `size`. -/
def accumulate (size : ℕ) (counts : ℕ → ℕ) : ℕ → ℕ :=
  (List.range size).foldl (fun o i => Function.update o (i + 1) (o (i + 1) + o i)) counts

/-- Place one item at the next free slot of its key. -/
def place (state : (ℕ → ℕ) × (ℕ → ℕ)) (item : ℕ × ℕ) : (ℕ → ℕ) × (ℕ → ℕ) :=
  (Function.update state.1 item.1 (state.1 item.1 + 1),
    Function.update state.2 (state.1 item.1) item.2)

/-- Lay out items given as pairs of key and value, for keys below `size`. -/
def build (size : ℕ) (items : List (ℕ × ℕ)) : Buckets :=
  let offsets := accumulate size (countKeys (items.map Prod.fst))
  { offsets := offsets
    slots := (items.foldl place (offsets, fun _ => 0)).2 }

end Buckets

end RtRuntime
