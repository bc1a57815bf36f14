import Turmite.Error

/-!
# Nested lists

A nested list is an array if all parts at one level have one shape and it has no more than
sixty-four levels. Its items are those of all its parts in order. A value that is no list is an
array of no levels with one item.
-/

namespace Turmite

namespace Json

/-- The common shape of shapes; no shape for no shapes. -/
def commonShape? : List (List Nat) → Except Error (List Nat)
  | [] => .ok []
  | first :: others => if others.all (· = first) then .ok first else .error .unreadableArray

mutual

/-- The extents of a nested list of any depth, outermost first. -/
def extents? : Json → Except Error (List Nat)
  | arr items => do
    let parts ← extentsOf? items
    let inner ← commonShape? parts
    pure (items.length :: inner)
  | _ => .ok []

/-- The extents of each part. -/
def extentsOf? : List Json → Except Error (List (List Nat))
  | [] => .ok []
  | v :: items => do
    let first ← extents? v
    let others ← extentsOf? items
    pure (first :: others)

end

/-- The most levels of an array. -/
def maxLevels : Nat := 64

/-- The shape of a nested list, if it is an array. -/
def shape? (v : Json) : Except Error (List Nat) := do
  let extents ← v.extents?
  ensure (extents.length ≤ maxLevels) .unreadableArray
  pure extents

mutual

/-- The items of a nested list in order. -/
def leaves : Json → List Json
  | arr items => leavesOf items
  | v => [v]

/-- The items of the parts in order. -/
def leavesOf : List Json → List Json
  | [] => []
  | v :: items => leaves v ++ leavesOf items

end

end Json
end Turmite
