/-!
# Items of a storage

A storage keeps items under keys, each key once. No answer shows the order of
the items; they are kept in the order in which their keys first came. The
statements here say what is found after an item is put.
-/

namespace Settings.Storage

/-- Items under keys, in the order in which the keys first came. -/
abbrev Items (κ ν : Type) := List (κ × ν)

namespace Items

variable {κ ν : Type} [DecidableEq κ]

/-- The item under a key. -/
def find? (key : κ) : Items κ ν → Option ν
  | [] => none
  | (k, v) :: rest => if k = key then some v else find? key rest

/-- Put an item under a key, in place of the one that was there. -/
def put (key : κ) (value : ν) : Items κ ν → Items κ ν
  | [] => [(key, value)]
  | (k, v) :: rest => if k = key then (key, value) :: rest else (k, v) :: put key value rest

/-- The items that are put one after another. -/
def ofEntries (entries : List (κ × ν)) : Items κ ν :=
  entries.foldl (fun items entry => items.put entry.1 entry.2) []

/-- What was put under a key is found there. -/
theorem find?_put_self (key : κ) (value : ν) (items : Items κ ν) :
    find? key (put key value items) = some value := by
  induction items with
  | nil => simp only [put, find?, if_true]
  | cons item rest ih =>
    by_cases h : item.1 = key
    · simp only [put, h, if_true, find?]
    · simp only [put, h, if_false, find?]
      exact ih

/-- Nothing else is touched. -/
theorem find?_put_other {key other : κ} (h : key ≠ other) (value : ν) (items : Items κ ν) :
    find? other (put key value items) = find? other items := by
  induction items with
  | nil => simp only [put, find?, h, if_false]
  | cons item rest ih =>
    by_cases hk : item.1 = key
    · simp only [put, hk, if_true, find?, h, if_false]
    · simp only [put, hk, if_false, find?, ih]

/-- Putting what is there already changes nothing. -/
theorem put_of_find? {items : Items κ ν} {key : κ} {value : ν} (h : find? key items = some value) :
    put key value items = items := by
  induction items with
  | nil => cases h
  | cons item rest ih =>
    obtain ⟨k, v⟩ := item
    rw [find?] at h
    rw [put]
    split at h
    · next hk =>
      cases h
      rw [if_pos hk, hk]
    · next hk => rw [if_neg hk, ih h]

end Items

end Settings.Storage
