import Turmite.Json.Token

/-!
# Reading JSON values

A text is one value and gaps. Reading goes through the tokens and stops at the first fault; a value
takes at most two steps for each of them, which bounds the recursion.
-/

namespace Turmite.Json

mutual

/-- The value at the front of a list of tokens, and the rest. -/
def value? : (steps : Nat) → (levels : Option Nat) → List Token → Except Fault (Json × List Token)
  | 0, _, _ => .error .malformed
  | _ + 1, _, .scalar v :: r => .ok (v, r)
  | _ + 1, _, .text t :: r => .ok (str t, r)
  | steps + 1, levels, .arrayStart :: r => do
    let levels ← inside? levels
    match r with
    | .arrayEnd :: r => pure (arr [], r)
    | r =>
      let (items, r) ← items? steps levels r
      pure (arr items, r)
  | steps + 1, levels, .objectStart :: r => do
    let levels ← inside? levels
    match r with
    | .objectEnd :: r => pure (obj [], r)
    | r =>
      let (pairs, r) ← members? steps levels r
      pure (obj (Members.ofList pairs), r)
  | _ + 1, _, .fault cause :: _ => .error cause
  | _ + 1, _, _ => .error .malformed

/-- The items up to the end of an array, at least one. -/
def items? : (steps : Nat) → (levels : Option Nat) → List Token →
    Except Fault (List Json × List Token)
  | 0, _, _ => .error .malformed
  | steps + 1, levels, tokens => do
    let (v, r) ← value? steps levels tokens
    match r with
    | .arrayEnd :: r => pure ([v], r)
    | .comma :: r =>
      let (items, r) ← items? steps levels r
      pure (v :: items, r)
    | _ => .error .malformed

/-- The pairs up to the end of an object, at least one. -/
def members? : (steps : Nat) → (levels : Option Nat) → List Token →
    Except Fault (List (Text × Json) × List Token)
  | 0, _, _ => .error .malformed
  | steps + 1, levels, .text key :: .colon :: tokens => do
    let (v, r) ← value? steps levels tokens
    match r with
    | .objectEnd :: r => pure ([(key, v)], r)
    | .comma :: r =>
      let (pairs, r) ← members? steps levels r
      pure ((key, v) :: pairs, r)
    | _ => .error .malformed
  | _ + 1, _, _ => .error .malformed

end

/-- The value that a text denotes. -/
def parse? (limits : Limits) (s : List Char) : Except Fault Json := do
  let tokens := Token.ofChars limits s
  let (v, r) ← value? (2 * tokens.length) limits.depth tokens
  if r.isEmpty then pure v else .error .malformed

end Turmite.Json
