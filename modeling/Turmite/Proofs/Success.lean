import Turmite.Procedure

/-!
# Successful computations

What a computation that succeeds has gone through: each of its steps has succeeded in turn
(`bind_eq_ok`, `Procedure.runOn_bind_eq_ok`) and each condition that it checks holds.
-/

namespace Turmite

theorem bind_eq_ok {ε α β : Type} {x : Except ε α} {f : α → Except ε β} {b : β} :
    (x >>= f) = .ok b ↔ ∃ a, x = .ok a ∧ f a = .ok b := by
  cases x <;> simp [bind, Except.bind]

section MapError

variable {ε ε' α : Type} {f : ε → ε'}

@[simp] theorem mapError_error (e : ε) : (.error e : Except ε α).mapError f = .error (f e) := rfl

@[simp] theorem mapError_ok (a : α) : (.ok a : Except ε α).mapError f = .ok a := rfl

theorem mapError_eq_ok {x : Except ε α} {a : α} : x.mapError f = .ok a ↔ x = .ok a := by
  cases x <;> simp

end MapError

theorem pure_eq_ok {α : Type} {a b : α} : (pure a : Except Error α) = .ok b ↔ a = b := by
  simp [pure, Except.pure]

theorem ensure_eq_ok {condition : Bool} {e : Error} {u : Unit} :
    ensure condition e = .ok u ↔ condition = true := by
  cases condition <;> simp [ensure]

theorem exists_of_any_toOption {ε α : Type} {x : Except ε α} {p : α → Bool}
    (h : x.toOption.any p = true) : ∃ a, x = .ok a ∧ p a = true := by
  cases x with
  | error e => cases h
  | ok a => exact ⟨a, rfl, h⟩

/-- What every item gives holds of all that a list of them gives. -/
theorem forall_of_mapM_eq_ok {α β : Type} {f : α → Except Error β} {P : β → Prop}
    (hf : ∀ a b, f a = .ok b → P b) {l : List α} {r : List β} (h : l.mapM f = .ok r) :
    ∀ b ∈ r, P b := by
  induction l generalizing r with
  | nil =>
    cases h
    simp
  | cons a l ih =>
    rw [List.mapM_cons] at h
    obtain ⟨b, hb, h⟩ := bind_eq_ok.1 h
    obtain ⟨r', hr', h⟩ := bind_eq_ok.1 h
    obtain rfl := pure_eq_ok.1 h
    exact List.forall_mem_cons.2 ⟨hf a b hb, ih hr'⟩

theorem length_of_mapM_eq_ok {α β : Type} {f : α → Except Error β} {l : List α} {r : List β}
    (h : l.mapM f = .ok r) : r.length = l.length := by
  induction l generalizing r with
  | nil =>
    cases h
    rfl
  | cons a l ih =>
    rw [List.mapM_cons] at h
    obtain ⟨b, -, h⟩ := bind_eq_ok.1 h
    obtain ⟨r', hr', h⟩ := bind_eq_ok.1 h
    obtain rfl := pure_eq_ok.1 h
    exact congrArg Nat.succ (ih hr')

/-- Where it is known what every item gives, it is what the list of them gives. -/
theorem mapM_map_eq_ok {α β γ : Type} {f : α → Except Error β} {g : γ → α} {r : γ → β} {l : List γ}
    (h : ∀ a ∈ l, f (g a) = .ok (r a)) : (l.map g).mapM f = .ok (l.map r) := by
  induction l with
  | nil => rfl
  | cons a l ih =>
    obtain ⟨ha, hl⟩ := List.forall_mem_cons.1 h
    rw [List.map_cons, List.mapM_cons, ha, ih hl]
    rfl

theorem exists_of_mem_of_mapM_eq_ok {α β : Type} {f : α → Except Error β} {l : List α} {r : List β}
    (h : l.mapM f = .ok r) : ∀ a ∈ l, ∃ b, f a = .ok b := by
  induction l generalizing r with
  | nil => simp
  | cons a l ih =>
    rw [List.mapM_cons] at h
    obtain ⟨b, hb, h⟩ := bind_eq_ok.1 h
    obtain ⟨r', hr', h⟩ := bind_eq_ok.1 h
    exact List.forall_mem_cons.2 ⟨⟨b, hb⟩, ih hr'⟩

/-- Where every item gives something the list of them does. -/
theorem exists_mapM_eq_some {α β : Type} {f : α → Option β} {l : List α}
    (h : ∀ a ∈ l, ∃ b, f a = some b) : ∃ r, l.mapM f = some r ∧ r.length = l.length := by
  induction l with
  | nil => exact ⟨[], rfl, rfl⟩
  | cons a l ih =>
    obtain ⟨b, hb⟩ := h a List.mem_cons_self
    obtain ⟨r, hr, hlength⟩ := ih fun a' ha' => h a' (List.mem_cons_of_mem a ha')
    exact ⟨b :: r, by rw [List.mapM_cons, hb, hr]; rfl, congrArg Nat.succ hlength⟩

/-- Where every item succeeds the list of them does. -/
theorem exists_mapM_eq_ok {α β : Type} {f : α → Except Error β} {l : List α}
    (h : ∀ a ∈ l, ∃ b, f a = .ok b) : ∃ r, l.mapM f = .ok r := by
  induction l with
  | nil => exact ⟨[], rfl⟩
  | cons a l ih =>
    obtain ⟨⟨b, hb⟩, hl⟩ := List.forall_mem_cons.1 h
    obtain ⟨r, hr⟩ := ih hl
    exact ⟨b :: r, by rw [List.mapM_cons, hb, hr]; rfl⟩

/-- A check of every item succeeds if it does on each. -/
theorem forM_eq_ok {α : Type} {f : α → Except Error Unit} {l : List α} {u : Unit} :
    l.forM f = .ok u ↔ ∀ a ∈ l, f a = .ok () := by
  induction l with
  | nil => simp [pure_eq_ok]
  | cons a l ih =>
    show (f a >>= fun _ => l.forM f) = _ ↔ _
    rw [bind_eq_ok, List.forall_mem_cons]
    constructor
    · rintro ⟨_, ha, hl⟩
      exact ⟨ha, ih.1 hl⟩
    · rintro ⟨ha, hl⟩
      exact ⟨(), ha, ih.2 hl⟩

/-- A check of every item that fails has failed on one. -/
theorem exists_of_forM_eq_error {α : Type} {f : α → Except Error Unit} {l : List α} {e : Error}
    (h : l.forM f = .error e) : ∃ a ∈ l, f a = .error e := by
  induction l with
  | nil => cases h
  | cons a l ih =>
    change (f a >>= fun _ => l.forM f) = _ at h
    cases ha : f a with
    | error e' =>
      rw [ha] at h
      cases h
      exact ⟨a, List.mem_cons_self, ha⟩
    | ok =>
      rw [ha] at h
      obtain ⟨b, hb, hfb⟩ := ih h
      exact ⟨b, List.mem_cons_of_mem a hb, hfb⟩

namespace Procedure

variable {σ τ α β : Type} {s t : σ}

theorem runOn_pure (a : α) (s : σ) : (pure a : Procedure σ α).runOn s = (.ok a, s) := rfl

theorem runOn_get (s : σ) : (get : Procedure σ σ).runOn s = (.ok s, s) := rfl

theorem runOn_set (s t : σ) : (set t : Procedure σ PUnit).runOn s = (.ok ⟨⟩, t) := rfl

/-- A step that succeeds goes on with what it gives. -/
theorem runOn_bind_of_eq_ok {p : Procedure σ α} {f : α → Procedure σ β} {a : α}
    (h : p.runOn s = (.ok a, t)) : (p >>= f).runOn s = (f a).runOn t := by
  rw [runOn_bind, h]

theorem ofExcept_ok_bind (a : α) (f : α → Procedure σ β) : (ofExcept (.ok a) >>= f) = f a := rfl

theorem runOn_bind_eq_ok {p : Procedure σ α} {f : α → Procedure σ β} {b : β} :
    (p >>= f).runOn s = (.ok b, t) ↔
      ∃ a u, p.runOn s = (.ok a, u) ∧ (f a).runOn u = (.ok b, t) := by
  rw [runOn_bind]
  rcases p.runOn s with ⟨_ | a, u⟩
  · simp
  · constructor
    · intro h
      exact ⟨a, u, rfl, h⟩
    · rintro ⟨a', u', h, h'⟩
      obtain ⟨h1, rfl⟩ := Prod.mk.inj h
      cases h1
      exact h'

theorem runOn_ofExcept_bind_eq_ok {result : Except Error α} {f : α → Procedure σ β} {b : β} :
    (ofExcept result >>= f).runOn s = (.ok b, t) ↔
      ∃ a, result = .ok a ∧ (f a).runOn s = (.ok b, t) := by
  rw [runOn_bind, runOn_ofExcept]
  cases result <;> simp

theorem runOn_require_bind_eq_ok {condition : Bool} {e : Error} {f : Unit → Procedure σ β}
    {b : β} :
    (require condition e >>= f).runOn s = (.ok b, t) ↔
      condition = true ∧ (f ()).runOn s = (.ok b, t) := by
  rw [runOn_bind]
  cases condition <;> simp

theorem runOn_within (part : τ → σ) (replace : σ → τ → τ) (p : Procedure σ α) (x : τ) :
    (p.within part replace).runOn x =
      ((p.runOn (part x)).1, replace (p.runOn (part x)).2 x) := rfl

/-- A step on a part goes on with the whole in which the part is replaced. -/
theorem runOn_within_bind_eq_ok {part : τ → σ} {replace : σ → τ → τ} {p : Procedure σ α}
    {f : α → Procedure τ β} {x y : τ} {b : β} :
    (p.within part replace >>= f).runOn x = (.ok b, y) ↔
      ∃ a u, p.runOn (part x) = (.ok a, u) ∧ (f a).runOn (replace u x) = (.ok b, y) := by
  rw [runOn_bind, runOn_within]
  rcases p.runOn (part x) with ⟨_ | a, u⟩
  · simp
  · constructor
    · intro h
      exact ⟨a, u, rfl, h⟩
    · rintro ⟨a', u', h, h'⟩
      obtain ⟨h1, rfl⟩ := Prod.mk.inj h
      cases h1
      exact h'

end Procedure
end Turmite
