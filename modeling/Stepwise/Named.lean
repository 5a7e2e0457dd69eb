/-
# Named entries in order

A list of named entries keeps the order in which the names were first set. Setting a
known name replaces its entry in place.

Key definitions: `Named`, `Named.get?`, `Named.put`, `Named.names`, `Named.ofList`.
Key theorems: `Named.get?_put_self`, `Named.get?_put_of_ne`, `Named.names_put`.
-/
namespace Stepwise

/-- Entries under names, in the order in which the names were first set. -/
abbrev Named (α : Type) := List (String × α)

namespace Named

variable {α : Type}

/-- The first entry under a name. -/
def get? : Named α → String → Option α
  | [], _ => none
  | (n, a) :: rest, name => if n = name then some a else get? rest name

/-- Sets the entry under a name. A new name goes to the end, a known one keeps its
position. -/
def put (name : String) (a : α) : Named α → Named α
  | [] => [(name, a)]
  | (n, b) :: rest => if n = name then (n, a) :: rest else (n, b) :: put name a rest

/-- The names in order. -/
def names (entries : Named α) : List String := entries.map (·.1)

/-- The entries set one after the other. -/
def ofList (entries : List (String × α)) : Named α :=
  entries.foldl (fun found e => put e.1 e.2 found) []

theorem get?_put_self (name : String) (a : α) :
    ∀ entries : Named α, get? (put name a entries) name = some a
  | [] => by simp [put, get?]
  | (n, b) :: rest => by
    by_cases h : n = name
    · simp [put, get?, h]
    · simp [put, get?, h, get?_put_self name a rest]

theorem get?_put_of_ne {name other : String} (a : α) (h : name ≠ other) :
    ∀ entries : Named α, get? (put name a entries) other = get? entries other
  | [] => by simp [put, get?, h]
  | (n, b) :: rest => by
    by_cases hn : n = name
    · subst hn
      simp [put, get?, h]
    · simp [put, get?, hn, get?_put_of_ne a h rest]

theorem names_put (name : String) (a : α) :
    ∀ entries : Named α,
      names (put name a entries) =
        if name ∈ names entries then names entries else names entries ++ [name]
  | [] => by simp [put, names]
  | (n, b) :: rest => by
    have ih := names_put name a rest
    by_cases h : n = name
    · simp [put, names, h]
    · have h' : name ≠ n := fun e => h e.symm
      simp only [put, h, if_false, names, List.map_cons, List.mem_cons, h', false_or] at ih ⊢
      rw [ih]
      split <;> simp [*]

end Named
end Stepwise
