import Turmite.Program.Payload
import Turmite.Proofs.Emission
import Turmite.Proofs.Success

/-!
# Reachable programs

The programs that come from the one without states by adding rules, by letting the last rule halt
and by reading payloads. In each of them a state stands once and has a rule at least
(`Program.Reachable.isRegular`): a rule goes to the end of the rules of its state, or to a new state
behind all others, and reading a payload is adding rules, so a key with no rules leaves no state.
-/

namespace Turmite.Program

/-- Every state stands once and has a rule. -/
structure IsRegular (p : Program) : Prop where
  nodup : p.states.Nodup
  ne_nil : ∀ entry ∈ p.entries, entry.2 ≠ []

/-- The programs made from the empty one, step by step. -/
inductive Reachable : Program → Prop
  | empty : Reachable empty
  | add {p : Program} (h : Reachable p) (state : Int) (rule : Rule) : Reachable (p.add state rule)
  | haltAfterLast {p : Program} (h : Reachable p) : Reachable p.haltAfterLast
  | load {p : Program} (limits : Limits) (payload : Json)
    (h : ofPayload? limits payload = .ok p) : Reachable p

/-! ## Adding rules -/

theorem states_addTo (state : Int) (rule : Rule) (entries : List (Int × List Rule)) :
    (addTo state rule entries).map (·.1) =
      if state ∈ entries.map (·.1) then entries.map (·.1) else entries.map (·.1) ++ [state] := by
  induction entries with
  | nil => rfl
  | cons head r ih =>
    obtain ⟨s, rules⟩ := head
    by_cases h : s = state
    · simp [addTo, h]
    · rw [addTo, if_neg h, List.map_cons, ih]
      split_ifs with hmem <;> simp_all

theorem ne_nil_of_mem_addTo {state : Int} {rule : Rule} {entries : List (Int × List Rule)}
    (h : ∀ entry ∈ entries, entry.2 ≠ []) : ∀ entry ∈ addTo state rule entries, entry.2 ≠ [] := by
  induction entries with
  | nil => simp [addTo]
  | cons head r ih =>
    obtain ⟨s, rules⟩ := head
    have ih := ih fun entry hentry => h entry (List.mem_cons_of_mem _ hentry)
    have hr := fun entry hentry => h entry (List.mem_cons_of_mem _ hentry)
    unfold addTo
    split_ifs
    · exact List.forall_mem_cons.2 ⟨by simp, hr⟩
    · exact List.forall_mem_cons.2 ⟨h _ List.mem_cons_self, ih⟩

theorem isRegular_empty : empty.IsRegular := ⟨List.nodup_nil, by simp [empty]⟩

theorem IsRegular.add {p : Program} (h : p.IsRegular) (state : Int) (rule : Rule) :
    (p.add state rule).IsRegular where
  nodup := by
    unfold states Program.add
    rw [states_addTo]
    split_ifs with hmem
    · exact h.nodup
    · exact List.nodup_append.2 ⟨h.nodup, by simp, by
        rintro s hs t ht rfl
        exact hmem (List.mem_singleton.1 ht ▸ hs)⟩
  ne_nil := ne_nil_of_mem_addTo h.ne_nil

/-! ## The last rule -/

section UpdateLast

variable {α β : Type} {f : α → α}

theorem map_updateLast {g : α → β} (h : ∀ a, g (f a) = g a) (l : List α) :
    (updateLast f l).map g = l.map g := by
  fun_induction updateLast f l with
  | case1 => rfl
  | case2 a => rw [List.map_singleton, List.map_singleton, h a]
  | case3 a b r ih => rw [List.map_cons, List.map_cons, ih]

theorem updateLast_map {f' : β → β} {g : α → β} (h : ∀ a, f' (g a) = g (f a)) (l : List α) :
    updateLast f' (l.map g) = (updateLast f l).map g := by
  fun_induction updateLast f l with
  | case1 => rfl
  | case2 a => rw [List.map_singleton, List.map_singleton, updateLast, h a]
  | case3 a b r ih => exact congrArg (g a :: ·) ih

theorem length_updateLast (l : List α) : (updateLast f l).length = l.length := by
  fun_induction updateLast f l with
  | case1 => rfl
  | case2 a => rfl
  | case3 a b r ih => rw [List.length_cons, List.length_cons, ih]

theorem forall_mem_updateLast {motive : α → Prop} (hf : ∀ a, motive a → motive (f a)) {l : List α}
    (h : ∀ a ∈ l, motive a) : ∀ a ∈ updateLast f l, motive a := by
  fun_induction updateLast f l with
  | case1 => exact h
  | case2 a => simpa using hf a (h a List.mem_cons_self)
  | case3 a b r ih =>
    obtain ⟨ha, hr⟩ := List.forall_mem_cons.1 h
    exact List.forall_mem_cons.2 ⟨ha, ih hr⟩

end UpdateLast

theorem IsRegular.haltAfterLast {p : Program} (h : p.IsRegular) : p.haltAfterLast.IsRegular where
  nodup := by
    unfold states Program.haltAfterLast
    rw [map_updateLast]
    · exact h.nodup
    · exact fun _ => rfl
  ne_nil := by
    refine forall_mem_updateLast (fun entry hentry => ?_) h.ne_nil
    rw [← List.length_pos_iff] at hentry ⊢
    rwa [length_updateLast]

/-! ## Payloads -/

/-- What every step keeps holds after all of them. -/
theorem foldlM_induction {α β : Type} {step : β → α → Except Error β} {motive : β → Prop}
    (hstep : ∀ b a b', motive b → step b a = .ok b' → motive b') {items : List α} {b b' : β}
    (hb : motive b) (h : items.foldlM step b = .ok b') : motive b' := by
  induction items generalizing b with
  | nil =>
    rw [List.foldlM_nil, pure_eq_ok] at h
    exact h ▸ hb
  | cons a items ih =>
    rw [List.foldlM_cons] at h
    obtain ⟨next, hnext, hrest⟩ := bind_eq_ok.1 h
    exact ih (hstep b a next hb hnext) hrest

/-- The rules of one key are added one after the other. -/
theorem isRegular_of_addEntry?_eq_ok {limits : Limits} {p q : Program} {key : Text} {rules : Json}
    (h : p.IsRegular) (hq : addEntry? limits p key rules = .ok q) : q.IsRegular := by
  unfold addEntry? at hq
  obtain ⟨state, -, hq⟩ := bind_eq_ok.1 hq
  obtain ⟨items, -, hq⟩ := bind_eq_ok.1 hq
  refine foldlM_induction (motive := IsRegular) (fun b item b' hb hstep => ?_) h hq
  obtain ⟨rule, -, hrule⟩ := bind_eq_ok.1 hstep
  rw [← pure_eq_ok.1 hrule]
  exact hb.add state rule

theorem isRegular_of_ofPayload? {limits : Limits} {payload : Json} {p : Program}
    (h : ofPayload? limits payload = .ok p) : p.IsRegular := by
  obtain ⟨members, -, hp⟩ := bind_eq_ok.1 h
  exact foldlM_induction (motive := IsRegular) (fun _ _ _ => isRegular_of_addEntry?_eq_ok)
    isRegular_empty hp

/-- In a reachable program every state stands once and has a rule. -/
theorem Reachable.isRegular {p : Program} (h : Reachable p) : p.IsRegular := by
  induction h with
  | empty => exact isRegular_empty
  | add _ state rule ih => exact ih.add state rule
  | haltAfterLast _ ih => exact ih.haltAfterLast
  | load limits payload h => exact isRegular_of_ofPayload? h

end Turmite.Program
