import Turmite.Proofs.Success

/-!
# What procedures keep

A procedure keeps a property of the state if the property holds after it whenever it held before,
whether the procedure is refused or not (`Procedure.Keeps`). One that goes through several steps
keeps what each of them keeps, and a step may rely on the conditions that were checked before it.
-/

namespace Turmite

namespace Procedure

variable {σ τ α β : Type}

/-- The property holds after the procedure, also if it is refused, when it held before. -/
def Keeps (I : σ → Prop) (p : Procedure σ α) : Prop := ∀ s, I s → I (p.runOn s).2

variable {I : σ → Prop} {J : τ → Prop} {p : Procedure σ α} {f : α → Procedure σ β}

theorem keeps_pure (a : α) : Keeps I (pure a : Procedure σ α) := fun _ h => h

theorem keeps_throw (e : Error) : Keeps I (throw e : Procedure σ α) := fun _ h => h

theorem keeps_get : Keeps I (get : Procedure σ σ) := fun _ h => h

theorem keeps_ofExcept (result : Except Error α) : Keeps I (ofExcept result) := fun _ h => h

theorem keeps_set {t : σ} (h : I t) : Keeps I (set t : Procedure σ PUnit) := fun _ _ => h

theorem keeps_modify {f : σ → σ} (h : ∀ s, I s → I (f s)) :
    Keeps I (modify f : Procedure σ PUnit) := h

/-! ## Steps one after the other -/

theorem keeps_bind (hp : Keeps I p) (hf : ∀ a, Keeps I (f a)) : Keeps I (p >>= f) := by
  intro s hs
  have ht := hp s hs
  rw [runOn_bind]
  rcases hrun : p.runOn s with ⟨_ | a, t⟩ <;> rw [hrun] at ht
  · exact ht
  · exact hf a t ht

theorem keeps_ofExcept_bind {result : Except Error α} (hf : ∀ a, result = .ok a → Keeps I (f a)) :
    Keeps I (ofExcept result >>= f) := by
  intro s hs
  rw [runOn_bind, runOn_ofExcept]
  cases result with
  | error e => exact hs
  | ok a => exact hf a rfl s hs

theorem keeps_require_bind {condition : Bool} {e : Error} {f : Unit → Procedure σ β}
    (hf : condition = true → Keeps I (f ())) : Keeps I (require condition e >>= f) := by
  refine keeps_ofExcept_bind fun _ h => hf ?_
  cases condition with
  | false => cases h
  | true => rfl

/-! ## Steps on a part -/

theorem keeps_within {part : τ → σ} {replace : σ → τ → τ} (hp : Keeps I p)
    (hpart : ∀ x, J x → I (part x)) (hreplace : ∀ s x, J x → I s → J (replace s x)) :
    Keeps J (p.within part replace) := by
  intro x hx
  rw [runOn_within]
  exact hreplace _ x hx (hp _ (hpart x hx))

end Procedure
end Turmite
