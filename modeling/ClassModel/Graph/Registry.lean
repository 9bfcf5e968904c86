/-!
# Registries

Entries under names, in ascending order of the names, each name once.
-/

namespace ClassModel

abbrev Registry (α : Type) := List (String × α)

namespace Registry

variable {α : Type}

def get? : Registry α → String → Option α
  | [], _ => none
  | (k, x) :: rest, name => if k = name then some x else get? rest name

def insert (name : String) (x : α) : Registry α → Registry α
  | [] => [(name, x)]
  | (k, y) :: rest =>
    if name = k then (name, x) :: rest
    else if name < k then (name, x) :: (k, y) :: rest
    else (k, y) :: insert name x rest

def insertNew (name : String) (x : α) (r : Registry α) : Registry α :=
  if (get? r name).isSome then r else insert name x r

def erase (r : Registry α) (name : String) : Registry α := r.filter (·.1 != name)

def values (r : Registry α) : List α := r.map (·.2)

theorem get?_insert_self (name : String) (x : α) :
    ∀ r : Registry α, get? (insert name x r) name = some x
  | [] => by simp [insert, get?]
  | (k, y) :: rest => by
    unfold insert
    by_cases h₁ : name = k
    · simp [h₁, get?]
    · by_cases h₂ : name < k
      · simp [h₁, h₂, get?]
      · simp [h₁, h₂, get?, Ne.symm h₁, get?_insert_self name x rest]

theorem get?_insert_of_ne {name other : String} (x : α) (h : other ≠ name) :
    ∀ r : Registry α, get? (insert name x r) other = get? r other
  | [] => by simp [insert, get?, h.symm]
  | (k, y) :: rest => by
    unfold insert
    by_cases h₁ : name = k
    · subst h₁; simp [get?, h.symm]
    · by_cases h₂ : name < k
      · simp [h₁, h₂, get?, h.symm]
      · simp [h₁, h₂, get?, get?_insert_of_ne x h rest]

end Registry

end ClassModel
