import BearerGate.Text

namespace BearerGate

abbrev Table (α : Type) := List (Text × α)

namespace Table

variable {α : Type}

def get? (name : Text) : Table α → Option α
  | [] => none
  | (k, v) :: rest => if k = name then some v else get? name rest

/-- A name that is there already keeps its place. -/
def put (name : Text) (value : α) : Table α → Table α
  | [] => [(name, value)]
  | (k, v) :: rest => if k = name then (k, value) :: rest else (k, v) :: put name value rest

/-- Of a repeated name the last value counts. -/
def ofPairs (pairs : List (Text × α)) : Table α := pairs.foldl (fun t (k, v) => put k v t) []

@[simp] theorem get?_nil (name : Text) : get? name ([] : Table α) = none := rfl

theorem get?_put_self (name : Text) (value : α) (t : Table α) :
    get? name (put name value t) = some value := by
  induction t with
  | nil => simp [put, get?]
  | cons m t ih =>
    obtain ⟨k, v⟩ := m
    by_cases h : k = name <;> simp [put, get?, h, ih]

theorem get?_put_of_ne {name other : Text} (h : other ≠ name) (value : α) (t : Table α) :
    get? other (put name value t) = get? other t := by
  induction t with
  | nil => simp [put, get?, Ne.symm h]
  | cons m t ih =>
    obtain ⟨k, v⟩ := m
    by_cases hk : k = name
    · subst hk; simp [put, get?, Ne.symm h]
    · simp only [put, hk, if_false, get?, ih]

end Table

end BearerGate
