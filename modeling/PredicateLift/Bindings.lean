/-!
# Lists of bindings

A finite map is kept as a list of bindings in increasing order of keys, so that equal maps are equal lists. Lookups
are `List.lookup`.
-/

namespace PredicateLift.Bindings

variable {κ ν : Type} [DecidableEq κ]

theorem lookup_cons {key other : κ} {value : ν} {rest : List (κ × ν)} :
    ((key, value) :: rest).lookup other = if other = key then some value else rest.lookup other := by
  by_cases h : other = key
  · simp [h]
  · simp [h, List.lookup_cons, beq_eq_false_iff_ne.mpr h]

variable [LT κ] [DecidableLT κ]

/-- Binds a key, in place of an earlier binding of it. -/
def insert (key : κ) (value : ν) : List (κ × ν) → List (κ × ν)
  | [] => [(key, value)]
  | (k, v) :: rest =>
    if key < k then (key, value) :: (k, v) :: rest
    else if key = k then (key, value) :: rest
    else (k, v) :: insert key value rest

theorem lookup_insert {key other : κ} {value : ν} {bindings : List (κ × ν)} :
    (insert key value bindings).lookup other = if other = key then some value else bindings.lookup other := by
  induction bindings with
  | nil => exact lookup_cons
  | cons binding rest ih =>
      obtain ⟨k, v⟩ := binding
      rw [insert]
      split
      · exact lookup_cons
      · split
        · rename_i hk
          subst hk
          simp only [lookup_cons]
          split <;> rfl
        · rename_i hk
          rw [lookup_cons, ih, lookup_cons]
          by_cases h : other = key
          · subst h
            rw [if_neg hk]
            simp
          · simp [h]

/-- The map of the given bindings, of which the last one of each key counts. -/
def ofList (bindings : List (κ × ν)) : List (κ × ν) :=
  bindings.foldl (fun bound binding => insert binding.1 binding.2 bound) []

end PredicateLift.Bindings
