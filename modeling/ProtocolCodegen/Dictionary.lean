/-!
# Dictionaries

A dictionary is a list of pairs in the order in which its keys were first put.  Putting a key again
changes the value and keeps the place.
-/

namespace ProtocolCodegen

/-- A dictionary that keeps the order in which its keys were first put. -/
abbrev Dictionary (κ α : Type) := List (κ × α)

namespace Dictionary

variable {κ α : Type} [DecidableEq κ]

/-- The value of a key. -/
def get? (key : κ) : Dictionary κ α → Option α
  | [] => none
  | (other, value) :: rest => if other = key then some value else get? key rest

/-- The dictionary in which a key has a value. -/
def put (key : κ) (value : α) : Dictionary κ α → Dictionary κ α
  | [] => [(key, value)]
  | (other, old) :: rest =>
      if other = key then (other, value) :: rest else (other, old) :: put key value rest

/-- The dictionary that results from putting pairs one after the other. -/
def putAll (entries : List (κ × α)) (dictionary : Dictionary κ α) : Dictionary κ α :=
  entries.foldl (fun dictionary entry => dictionary.put entry.1 entry.2) dictionary

/-- The dictionary of a list of pairs; of equal keys the first gives the place and the last the
value. -/
def ofList (entries : List (κ × α)) : Dictionary κ α :=
  putAll entries []

/-- The dictionary without a key. -/
def erase (key : κ) (dictionary : Dictionary κ α) : Dictionary κ α :=
  dictionary.filter fun entry => entry.1 ≠ key

/-- The keys in order. -/
def keys (dictionary : Dictionary κ α) : List κ :=
  dictionary.map (·.1)

/-- Whether a key has a value. -/
def hasKey (key : κ) (dictionary : Dictionary κ α) : Bool :=
  (dictionary.get? key).isSome

@[simp]
theorem get?_nil (key : κ) : get? key ([] : Dictionary κ α) = none := rfl

theorem get?_put (key other : κ) (value : α) (dictionary : Dictionary κ α) :
    (dictionary.put key value).get? other =
      if key = other then some value else dictionary.get? other := by
  induction dictionary with
  | nil => simp [put, get?]
  | cons entry rest ih =>
      obtain ⟨first, old⟩ := entry
      by_cases same : first = key
      · subst same
        by_cases found : first = other <;> simp [put, get?, found]
      · by_cases found : first = other
        · have different : key ≠ other := fun equal => same (found.trans equal.symm)
          simp [put, get?, found, different, Ne.symm different]
        · simp [put, get?, same, found, ih]

theorem mem_of_get? {key : κ} {value : α} {dictionary : Dictionary κ α}
    (found : dictionary.get? key = some value) : (key, value) ∈ dictionary := by
  induction dictionary with
  | nil => cases found
  | cons entry rest induction =>
      obtain ⟨other, first⟩ := entry
      rw [get?] at found
      split at found
      · rename_i same
        cases found
        exact same ▸ List.mem_cons_self
      · exact List.mem_cons_of_mem _ (induction found)

theorem hasKey_iff_mem_keys {key : κ} {dictionary : Dictionary κ α} :
    dictionary.hasKey key = true ↔ key ∈ dictionary.keys := by
  induction dictionary with
  | nil => simp [hasKey, keys]
  | cons entry rest induction =>
      obtain ⟨other, value⟩ := entry
      by_cases same : other = key
      · simp [hasKey, keys, get?, same]
      · simpa [hasKey, keys, get?, same, Ne.symm same] using induction

end Dictionary
end ProtocolCodegen
