import Turmite.Error

/-!
# Procedures

A procedure works on a state and may be refused; what it did to the state before that is kept. A
procedure on a part of a state is one on the whole.
-/

namespace Turmite

/-- An operation on a state that may be refused and keeps the state that it has reached. -/
abbrev Procedure (σ α : Type) := ExceptT Error (StateM σ) α

namespace Procedure

variable {σ τ α : Type}

/-- The result and the state that a procedure reaches. -/
def runOn (p : Procedure σ α) (s : σ) : Except Error α × σ := StateT.run (ExceptT.run p) s

/-- The procedure on a part of a larger state. -/
def within (part : τ → σ) (replace : σ → τ → τ) (p : Procedure σ α) : Procedure τ α :=
  ExceptT.mk fun t =>
    let (result, s) := p.runOn (part t)
    (result, replace s t)

/-- A result that does not depend on the state. -/
def ofExcept (result : Except Error α) : Procedure σ α := ExceptT.mk (pure result)

/-- Refuses with `e` unless a condition holds. -/
def require (condition : Bool) (e : Error) : Procedure σ Unit :=
  ofExcept (if condition then .ok () else .error e)

@[simp] theorem runOn_ofExcept (result : Except Error α) (s : σ) :
    (ofExcept result : Procedure σ α).runOn s = (result, s) := rfl

@[simp] theorem runOn_require_true (e : Error) (s : σ) :
    (require true e : Procedure σ Unit).runOn s = (.ok (), s) := rfl

@[simp] theorem runOn_require_false (e : Error) (s : σ) :
    (require false e : Procedure σ Unit).runOn s = (.error e, s) := rfl

theorem runOn_bind {β : Type} (p : Procedure σ α) (f : α → Procedure σ β) (s : σ) :
    (p >>= f).runOn s =
      match p.runOn s with
      | (.ok a, t) => (f a).runOn t
      | (.error e, t) => (.error e, t) := by
  show StateT.run (ExceptT.run (p >>= f)) s = _
  simp only [ExceptT.run_bind, StateT.run_bind]
  show (match StateT.run (ExceptT.run p) s with | (r, t) => _) = _
  unfold runOn
  cases StateT.run (ExceptT.run p) s with
  | mk r t => cases r <;> rfl

end Procedure

end Turmite
