import MessageCatalog.Index

/-!
# JSON values

Objects keep their members in order. Numbers are counts: nothing else is ever written.
-/

namespace MessageCatalog.Json

/-- A JSON value. -/
inductive Value
  | null
  | bool (b : Bool)
  | count (n : Nat)
  | text (s : String)
  | array (items : List Value)
  | object (members : List (String × Value))
  deriving Repr, Inhabited

def Value.ofText? : Option String → Value
  | none => .null
  | some s => .text s

mutual

/-- The value with the members of every object in ascending order of their keys. -/
def Value.sorted : Value → Value
  | .array items => .array (sortedItems items)
  | .object members => .object (sortedMembers members)
  | v => v

def sortedItems : List Value → List Value
  | [] => []
  | v :: rest => v.sorted :: sortedItems rest

/-- Sorts the members of an object; of members with one key, the last counts. -/
def sortedMembers : List (String × Value) → List (String × Value)
  | [] => []
  | (k, v) :: rest =>
    let after := sortedMembers rest
    if after.any (·.1 = k) then after else Index.insert k v.sorted after

end

end MessageCatalog.Json
