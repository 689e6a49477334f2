/-!
# Placeholders

A text refers to its arguments by placeholders: `%1` to `%99`, `%n` for the count, and either with
an `L` after the percent sign for a localised number. A translation may move the placeholders of
its source, but not drop, add or repeat them.

Placeholders are found from left to right, each as long as possible, and do not overlap: `%100`
holds the placeholder `%10`.
-/

namespace MessageCatalog.Integrity

/-- What a placeholder refers to, if the text begins with one after its percent sign and `L`: an
argument number of one or two digits, or the count. -/
def reference? : List Char → Option (List Char)
  | 'n' :: _ => some ['n']
  | a :: rest =>
    if '1' ≤ a ∧ a ≤ '9' then
      match rest with
      | b :: _ => if '0' ≤ b ∧ b ≤ '9' then some [a, b] else some [a]
      | [] => some [a]
    else none
  | [] => none

/-- The placeholder that a text begins with: what it refers to, and the number of its characters
after the percent sign. -/
def placeholder? : List Char → Option (List Char × Nat)
  | '%' :: 'L' :: rest => (reference? rest).map fun r ↦ (r, r.length + 1)
  | '%' :: rest => (reference? rest).map fun r ↦ (r, r.length)
  | _ => none

/-- What the placeholders in a text refer to, in order, leaving out the first `skip` characters. -/
def referencesFrom : (skip : Nat) → List Char → List (List Char)
  | _, [] => []
  | skip + 1, _ :: cs => referencesFrom skip cs
  | 0, c :: cs =>
    match placeholder? (c :: cs) with
    | some (r, length) => r :: referencesFrom length cs
    | none => referencesFrom 0 cs

/-- What the placeholders in a text refer to, in ascending order, repetitions kept. The count is
left out of the texts of a message that depends on it, since some forms need not show it. -/
def references (text : String) (numerus : Bool) : List String :=
  let found := (referencesFrom 0 text.toList).map String.ofList
  (found.filter fun r ↦ !(numerus && r = "n")).mergeSort fun a b ↦ decide (a ≤ b)

end MessageCatalog.Integrity
