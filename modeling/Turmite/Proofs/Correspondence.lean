import Turmite.Proofs.Success

/-!
# Procedures on corresponding states

A procedure respects a relation between states if it ends in the same way on states that correspond,
with the same result or the same error, and leaves states that correspond (`Procedure.Respects`).
One that goes through several steps respects what each of them respects.
-/

namespace Turmite

namespace Procedure

variable {σ τ α β : Type}

/-- On corresponding states the procedure has the same result and leaves corresponding states. -/
def Respects (R : σ → σ → Prop) (p : Procedure σ α) : Prop :=
  ∀ s t, R s t → (p.runOn s).1 = (p.runOn t).1 ∧ R (p.runOn s).2 (p.runOn t).2

variable {R : σ → σ → Prop} {Q : τ → τ → Prop} {p : Procedure σ α} {f : α → Procedure σ β}

theorem respects_eq (p : Procedure σ α) : Respects Eq p := by
  intro s t h
  rw [h]
  exact ⟨rfl, rfl⟩

theorem respects_pure (a : α) : Respects R (pure a : Procedure σ α) := fun _ _ h => ⟨rfl, h⟩

theorem respects_throw (e : Error) : Respects R (throw e : Procedure σ α) := fun _ _ h => ⟨rfl, h⟩

theorem respects_ofExcept (result : Except Error α) : Respects R (ofExcept result) :=
  fun _ _ h => ⟨rfl, h⟩

theorem respects_set {t : σ} (h : R t t) : Respects R (set t : Procedure σ PUnit) :=
  fun _ _ _ => ⟨rfl, h⟩

theorem respects_require (condition : Bool) (e : Error) : Respects R (require condition e) :=
  respects_ofExcept _

/-! ## Steps one after the other -/

theorem respects_bind (hp : Respects R p) (hf : ∀ a, Respects R (f a)) : Respects R (p >>= f) := by
  intro s t h
  obtain ⟨hresult, hstate⟩ := hp s t h
  rw [runOn_bind, runOn_bind]
  rcases hs : p.runOn s with ⟨result, s'⟩
  rcases ht : p.runOn t with ⟨result', t'⟩
  rw [hs, ht] at hresult hstate
  simp only at hresult hstate
  subst hresult
  cases result with
  | error e => exact ⟨rfl, hstate⟩
  | ok a => exact hf a s' t' hstate

/-- What is read of the state has to be the same in corresponding ones. -/
theorem respects_get_bind {f : σ → Procedure σ β} (hread : ∀ s t, R s t → f s = f t)
    (hf : ∀ s, Respects R (f s)) : Respects R (get >>= f) := by
  intro s t h
  rw [runOn_bind, runOn_bind, runOn_get, runOn_get]
  show ((f s).runOn s).1 = ((f t).runOn t).1 ∧ R ((f s).runOn s).2 ((f t).runOn t).2
  rw [← hread s t h]
  exact hf s s t h

/-! ## Steps on a part -/

theorem respects_within {part : τ → σ} {replace : σ → τ → τ} (hp : Respects R p)
    (hpart : ∀ x y, Q x y → R (part x) (part y))
    (hreplace : ∀ s t x y, Q x y → R s t → Q (replace s x) (replace t y)) :
    Respects Q (p.within part replace) := by
  intro x y h
  obtain ⟨hresult, hstate⟩ := hp _ _ (hpart x y h)
  rw [runOn_within, runOn_within]
  exact ⟨hresult, hreplace _ _ x y h hstate⟩

end Procedure
end Turmite
