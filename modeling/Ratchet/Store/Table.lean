/-!
# Tables

A table gives a value to finitely many keys. Looking a key up after an insertion
or a removal gives what was inserted or nothing for that key, and what was there
before for every other key.
-/

set_option autoImplicit false

namespace Ratchet

/-- Values under distinct keys, the latest insertion first. -/
structure Table (κ ν : Type) where
  entries : List (κ × ν) := []
deriving DecidableEq

namespace Table

variable {κ ν : Type} [DecidableEq κ]

/-- The table without entries. -/
def empty : Table κ ν := {}

/-- The value under a key. -/
def find? (table : Table κ ν) (key : κ) : Option ν :=
  (table.entries.find? (·.1 = key)).map Prod.snd

/-- Whether there is a value under a key. -/
def contains (table : Table κ ν) (key : κ) : Bool := (table.find? key).isSome

/-- The table with those entries alone whose keys have a property. -/
def filterKeys (table : Table κ ν) (property : κ → Bool) : Table κ ν :=
  ⟨table.entries.filter (property ·.1)⟩

/-- The table without a value under a key. -/
def erase (table : Table κ ν) (key : κ) : Table κ ν := table.filterKeys (· ≠ key)

/-- The table with this value under a key. -/
def insert (table : Table κ ν) (key : κ) (value : ν) : Table κ ν :=
  ⟨(key, value) :: (table.erase key).entries⟩

/-- All values. -/
def values (table : Table κ ν) : List ν := table.entries.map Prod.snd

theorem find?_filterKeys (table : Table κ ν) (property : κ → Bool) (key : κ) :
    (table.filterKeys property).find? key = if property key then table.find? key else none := by
  unfold find? filterKeys
  rw [List.find?_filter]
  split
  · rename_i holds
    congr 2
    funext entry
    by_cases same : entry.1 = key <;> simp [same, holds]
  · rename_i fails
    have nothing : table.entries.find? (fun entry => property entry.1 && decide (entry.1 = key)) =
        none := by
      rw [List.find?_eq_none]
      intro entry _
      by_cases same : entry.1 = key <;> simp [same, fails]
    simp [nothing]

@[simp]
theorem find?_erase (table : Table κ ν) (erased key : κ) :
    (table.erase erased).find? key = if key = erased then none else table.find? key := by
  simp [erase, find?_filterKeys]

@[simp]
theorem find?_insert (table : Table κ ν) (inserted key : κ) (value : ν) :
    (table.insert inserted value).find? key =
      if key = inserted then some value else table.find? key := by
  by_cases same : inserted = key
  · simp [insert, find?, same]
  · have kept := find?_erase table inserted key
    rw [if_neg (Ne.symm same)] at kept ⊢
    rw [← kept]
    simp [insert, find?, same]

end Table

end Ratchet
