/-!
# Values by name

Pairs of a name and a value, in the order in which the names first came. A name has the value of its
first pair.
-/

namespace MessageCatalog

/-- Values by name. -/
abbrev Index (α : Type) := List (String × α)

namespace Index

variable {α : Type}

/-- The value of a name. -/
def get? (index : Index α) (name : String) : Option α :=
  (index.find? (·.1 = name)).map (·.2)

/-- Changes the value of a name, from a default if the name is new. -/
def update (default : α) (f : α → α) (name : String) : Index α → Index α
  | [] => [(name, f default)]
  | (n, a) :: rest => if n = name then (n, f a) :: rest else (n, a) :: update default f name rest

def set (name : String) (value : α) (index : Index α) : Index α :=
  index.update value (fun _ ↦ value) name

/-- Adds a value to an index whose names ascend, in the place of the one that its name has. -/
def insert (name : String) (value : α) : Index α → Index α
  | [] => [(name, value)]
  | (n, a) :: rest =>
    if name < n then (name, value) :: (n, a) :: rest
    else if name = n then (name, value) :: rest
    else (n, a) :: insert name value rest

/-! ## What a name has after a change -/

@[simp] theorem get?_nil (name : String) : get? ([] : Index α) name = none := rfl

@[simp] theorem get?_cons (n : String) (a : α) (rest : Index α) (name : String) :
    get? ((n, a) :: rest) name = if n = name then some a else rest.get? name := by
  by_cases hname : n = name <;> simp [get?, hname]

/-- Only the name itself gets another value. -/
@[simp] theorem get?_update (default : α) (f : α → α) (name : String) (index : Index α)
    (key : String) :
    (index.update default f name).get? key
      = if name = key then some (f ((index.get? name).getD default)) else index.get? key := by
  induction index with
  | nil => simp [update]
  | cons pair rest ih =>
    obtain ⟨n, a⟩ := pair
    by_cases hn : n = name
    · subst hn
      by_cases hkey : n = key <;> simp [update, hkey]
    · by_cases hkey : n = key
      · subst hkey
        simp [update, hn, Ne.symm hn]
      · simp [update, hn, hkey, ih]

end Index

end MessageCatalog
