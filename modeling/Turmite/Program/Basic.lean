import Turmite.Geometry.Point

/-!
# Turmite programs

A program gives each of its states a list of rules and keeps the states in the order in which they
first got one. A turmite follows the first rule of its state: it writes a color, moves and takes
the next state. The state `-1` halts.
-/

namespace Turmite

/-- One transition. -/
structure Rule where
  color : Int
  move : Direction
  next : Int
  deriving DecidableEq

/-- The state that halts. -/
def haltState : Int := -1

/-- The rule with the halting state next. -/
def Rule.halting (r : Rule) : Rule := { r with next := haltState }

/-- The states with their rules. -/
structure Program where
  entries : List (Int × List Rule)
  deriving DecidableEq

namespace Program

/-- The program without states. -/
def empty : Program := ⟨[]⟩

/-- Appends a rule to the rules of its state. -/
def addTo (state : Int) (rule : Rule) : List (Int × List Rule) → List (Int × List Rule)
  | [] => [(state, [rule])]
  | (s, rules) :: r =>
    if s = state then (s, rules ++ [rule]) :: r else (s, rules) :: addTo state rule r

/-- The program with a rule more. -/
def add (p : Program) (state : Int) (rule : Rule) : Program := ⟨addTo state rule p.entries⟩

/-- The rules added one after the other. -/
def ofRules (rules : List (Int × Rule)) : Program :=
  rules.foldl (fun p (state, rule) => p.add state rule) empty

/-- The states in order. -/
def states (p : Program) : List Int := p.entries.map (·.1)

/-- The rules of a state. -/
def rules? (p : Program) (state : Int) : Option (List Rule) :=
  (p.entries.find? (·.1 = state)).map (·.2)

/-- Whether a state has rules. -/
def contains (p : Program) (state : Int) : Bool := (p.rules? state).isSome

/-- The state that got its first rule last. -/
def lastState? (p : Program) : Option Int := p.entries.getLast?.map (·.1)

/-- The number of states. -/
def size (p : Program) : Nat := p.entries.length

/-- The number of rules. -/
def ruleCount (p : Program) : Nat := (p.entries.flatMap (·.2)).length

/-- Lets the last element of a list go through a function. -/
def updateLast {α : Type} (f : α → α) : List α → List α
  | [] => []
  | [a] => [f a]
  | a :: b :: r => a :: updateLast f (b :: r)

/-- Makes the last rule of the last state halt. -/
def haltAfterLast (p : Program) : Program :=
  ⟨updateLast (fun (state, rules) => (state, updateLast Rule.halting rules)) p.entries⟩

/-- All rules with their states, state by state. -/
def flat (p : Program) : List (Int × Rule) :=
  p.entries.flatMap fun (state, rules) => rules.map (state, ·)

/-! ## States and rules after an addition -/

theorem rules?_addTo_self (state : Int) (rule : Rule) (entries : List (Int × List Rule)) :
    rules? ⟨addTo state rule entries⟩ state =
      some ((rules? ⟨entries⟩ state).getD [] ++ [rule]) := by
  induction entries with
  | nil => simp [rules?, addTo]
  | cons head r ih =>
    obtain ⟨s, rules⟩ := head
    by_cases h : s = state
    · simp [rules?, addTo, h]
    · simpa [rules?, addTo, h] using ih

theorem rules?_addTo_of_ne {state other : Int} (h : other ≠ state) (rule : Rule)
    (entries : List (Int × List Rule)) :
    rules? ⟨addTo state rule entries⟩ other = rules? ⟨entries⟩ other := by
  induction entries with
  | nil => simp [rules?, addTo, Ne.symm h]
  | cons head r ih =>
    obtain ⟨s, rules⟩ := head
    by_cases hs : s = state
    · simp [rules?, addTo, hs, Ne.symm h]
    · by_cases ho : s = other
      · subst ho
        simp [rules?, addTo, hs]
      · simpa [rules?, addTo, hs, ho] using ih

end Program
end Turmite
