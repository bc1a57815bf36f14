import Turmite.LooseProgram.Basic
import Turmite.Proofs.PayloadGroups

/-!
# The rule that is made to halt

A program is made to halt by a change to the next state of one rule, the last rule of the state that
got its first rule last (`Program.IsRegular.redirects_haltAfterLast`). If the rules were added one
after the other, this is the rule added last as long as that rule went to the newest state. A rule
that goes to an earlier state is the last of its state, yet the state stays where it is, and another
rule is redirected (`Program.haltAfterLast_redirects`).
-/

namespace Turmite

namespace Program

/-- The second program is the first one with the last rule of a state redirected to the halting
state: the rule keeps its color and its move, all other rules stay, and so does the order of the
states. -/
structure Redirects (state : Int) (p q : Program) : Prop where
  states : q.states = p.states
  last : ∃ front rule, p.rules? state = some (front ++ [rule]) ∧
    q.rules? state = some (front ++ [⟨rule.color, rule.move, -1⟩])
  others : ∀ other, other ≠ state → q.rules? other = p.rules? other

/-- The last rule of a state halts. -/
def HaltsIn (p : Program) (state : Int) : Prop :=
  ∃ front rule, p.rules? state = some (front ++ [rule]) ∧ rule.next = -1

variable {p q : Program} {s t : Int}

theorem haltsIn_iff {front : List Rule} {rule : Rule}
    (h : p.rules? s = some (front ++ [rule])) : p.HaltsIn s ↔ rule.next = -1 := by
  constructor
  · rintro ⟨front', rule', hrules, hnext⟩
    obtain ⟨-, rfl⟩ := List.append_singleton_inj.1 (Option.some.inj (h.symm.trans hrules))
    exact hnext
  · exact fun hnext => ⟨front, rule, h, hnext⟩

/-! ## Redirected rules -/

/-- Every state keeps the number of its rules. -/
theorem Redirects.length_rules (h : Redirects s p q) (state : Int) :
    ((q.rules? state).getD []).length = ((p.rules? state).getD []).length := by
  by_cases hstate : state = s
  · obtain ⟨front, rule, hp, hq⟩ := h.last
    rw [hstate, hp, hq]
    simp
  · rw [h.others state hstate]

/-- A rule that halts is redirected by leaving all as it is. -/
theorem redirects_iff_of_haltsIn (h : p.HaltsIn s) :
    Redirects s p q ↔ q.states = p.states ∧ ∀ state, q.rules? state = p.rules? state := by
  obtain ⟨front, ⟨color, move, next⟩, hp, rfl⟩ := h
  constructor
  · rintro ⟨hstates, ⟨front', rule', hp', hq⟩, hothers⟩
    refine ⟨hstates, fun state => ?_⟩
    by_cases hstate : state = s
    · obtain ⟨rfl, rfl⟩ := List.append_singleton_inj.1 (Option.some.inj (hp.symm.trans hp'))
      rw [hstate, hq, hp]
    · exact hothers state hstate
  · rintro ⟨hstates, hrules⟩
    exact ⟨hstates, ⟨front, _, hp, (hrules s).trans hp⟩, fun other _ => hrules other⟩

/-- A rule that is redirected and stays as it is halts. -/
theorem Redirects.haltsIn (h : Redirects s p q) (hstay : q.rules? s = p.rules? s) :
    p.HaltsIn s := by
  obtain ⟨front, rule, hp, hq⟩ := h.last
  rw [hp, hq] at hstay
  obtain ⟨-, hrule⟩ := List.append_singleton_inj.1 (Option.some.inj hstay)
  exact ⟨front, rule, hp, (congrArg Rule.next hrule).symm⟩

/-- Where one rule is redirected, no other is, unless both halt before. -/
theorem Redirects.redirects_iff (h : Redirects s p q) :
    Redirects t p q ↔ s = t ∨ p.HaltsIn t ∧ p.HaltsIn s := by
  constructor
  · intro h'
    by_cases hne : s = t
    · exact .inl hne
    · exact .inr ⟨h'.haltsIn (h.others t (Ne.symm hne)), h.haltsIn (h'.others s hne)⟩
  · rintro (rfl | ⟨ht, hs⟩)
    · exact h
    · exact (redirects_iff_of_haltsIn ht).2 ((redirects_iff_of_haltsIn hs).1 h)

/-! ## The newest state -/

section Newest

variable {front : List (Int × List Rule)}

theorem rules?_concat_self (h : s ∉ front.map (·.1)) (rules : List Rule) :
    rules? ⟨front ++ [(s, rules)]⟩ s = some rules := by
  have hnone : front.find? (·.1 = s) = none := by
    rw [List.find?_eq_none]
    intro entry hentry
    rw [decide_eq_true_eq]
    rintro rfl
    exact h (List.mem_map_of_mem hentry)
  unfold rules?
  rw [List.find?_append, hnone]
  simp

theorem rules?_concat_of_ne (h : t ≠ s) (rules : List Rule) :
    rules? ⟨front ++ [(s, rules)]⟩ t = rules? ⟨front⟩ t := by
  unfold rules?
  rw [List.find?_append]
  simp [Ne.symm h]

end Newest

theorem lastState?_eq_getLast? (p : Program) : p.lastState? = p.states.getLast? :=
  List.getLast?_map.symm

/-- Where every state stands once and has a rule, the last rule of the last state is redirected. -/
theorem IsRegular.redirects_haltAfterLast (h : p.IsRegular) (hlast : p.lastState? = some s) :
    Redirects s p p.haltAfterLast := by
  obtain ⟨entries⟩ := p
  obtain ⟨⟨newest, rules⟩, hentry, rfl⟩ := Option.map_eq_some_iff.1 hlast
  obtain ⟨front, rfl⟩ := List.getLast?_eq_some_iff.1 hentry
  -- No entry in front has the last state, so the rules found for it are those of the last entry.
  have hnew : newest ∉ front.map (·.1) := by
    have hnodup := h.nodup
    unfold Program.states at hnodup
    rw [List.map_append, List.nodup_append] at hnodup
    exact fun hmem => hnodup.2.2 _ hmem _ List.mem_cons_self rfl
  obtain ⟨rules, rule, rfl⟩ :=
    (List.eq_nil_or_concat' rules).resolve_left (h.ne_nil (newest, rules) (by simp))
  rw [haltAfterLast_concat]
  refine ⟨?_, ⟨rules, rule, ?_, ?_⟩, fun other hother => ?_⟩
  · simp [Program.states]
  · exact rules?_concat_self hnew _
  · exact rules?_concat_self hnew _
  · rw [rules?_concat_of_ne hother, rules?_concat_of_ne hother]

/-! ## Rules added one after the other -/

theorem isRegular_ofRules (rules : List (Int × Rule)) : (ofRules rules).IsRegular := by
  induction rules using List.reverseRecOn with
  | nil => exact isRegular_empty
  | append_singleton rules head ih =>
    obtain ⟨state, rule⟩ := head
    rw [ofRules_concat]
    exact ih.add state rule

/-- The rule that is added last stands behind all others of its state. -/
theorem rules?_ofRules_concat_self (rules : List (Int × Rule)) (state : Int) (rule : Rule) :
    (ofRules (rules ++ [(state, rule)])).rules? state = some (rulesAt state rules ++ [rule]) := by
  rw [rules?_ofRules, rulesAt_concat_self, if_neg (List.concat_ne_nil _ _)]

/-- One element more is the newest if it is a new one or was the newest before. -/
theorem getLast?_eraseDups_concat_eq_some_iff {α : Type} [DecidableEq α] (l : List α) (a : α) :
    (l ++ [a]).eraseDups.getLast? = some a ↔ a ∉ l ∨ l.eraseDups.getLast? = some a := by
  rw [eraseDups_concat]
  split_ifs with h <;> simp [h]

end Program

/-! ## Programs of any values -/

namespace LooseProgram

theorem addTo_ofProgram (state : Int) (rule : Rule) (entries : List (Int × List Rule)) :
    addTo (.int state) (.ofRule rule) (ofProgram ⟨entries⟩).entries =
      (ofProgram ⟨Program.addTo state rule entries⟩).entries := by
  induction entries with
  | nil => rfl
  | cons head r ih =>
    obtain ⟨s, rules⟩ := head
    unfold ofProgram at ih ⊢
    by_cases h : s = state
    · simp [addTo, Program.addTo, Json.isSame, Json.exactInteger?, h]
    · simpa [addTo, Program.addTo, Json.isSame, Json.exactInteger?, h] using ih

theorem add?_ofProgram (p : Program) (state : Int) (rule : Rule) :
    (ofProgram p).add? (.int state) (.ofRule rule) = .ok (ofProgram (p.add state rule)) :=
  congrArg (fun entries => Except.ok (mk entries)) (addTo_ofProgram state rule p.entries)

/-- Rules of integers are added as in a program of integers. -/
theorem foldlM_add?_eq_ofRules (rules : List (Int × Rule)) :
    rules.foldlM (fun q call => q.add? (.int call.1) (.ofRule call.2)) empty =
      .ok (ofProgram (.ofRules rules)) := by
  induction rules using List.reverseRecOn with
  | nil => rfl
  | append_singleton rules head ih =>
    rw [List.foldlM_append, ih, Program.ofRules_concat, ← add?_ofProgram]
    rfl

theorem haltAfterLast_ofProgram (p : Program) :
    (ofProgram p).haltAfterLast = ofProgram p.haltAfterLast := by
  refine congrArg mk (Program.updateLast_map (fun entry => ?_) p.entries)
  obtain ⟨state, rules⟩ := entry
  have hhalting (rule : Rule) : LooseRule.halting (.ofRule rule) = .ofRule rule.halting := rfl
  exact congrArg (Json.int state, ·) (Program.updateLast_map hhalting rules)

end LooseProgram

namespace Program

/-- Calls add rules, one at least, and then the program is made to halt. The rule of the last call
stands last in its state. What is redirected is the last rule of the newest state, the one whose
first call came last, and every state keeps the number of its rules. The same change redirects the
rule of the last call exactly if that call was for the newest state, which then had no rules before
it or was the newest one before it, or if both rules halt anyway. A program of any values that gets
the same calls makes the same rule halt. -/
theorem haltAfterLast_redirects (calls : List (Int × Rule)) (state : Int) (rule : Rule) :
    let p := ofRules (calls ++ [(state, rule)])
    p.rules? state = some (rulesAt state calls ++ [rule]) ∧
      ∃ newest, ((calls ++ [(state, rule)]).map (·.1)).eraseDups.getLast? = some newest ∧
        Redirects newest p p.haltAfterLast ∧
        (∀ s, ((p.haltAfterLast.rules? s).getD []).length = ((p.rules? s).getD []).length) ∧
        (Redirects state p p.haltAfterLast ↔
          newest = state ∨ rule.next = -1 ∧ p.HaltsIn newest) ∧
        (newest = state ↔
          state ∉ calls.map (·.1) ∨ (calls.map (·.1)).eraseDups.getLast? = some state) ∧
        (calls ++ [(state, rule)]).foldlM (fun q call => q.add? (.int call.1) (.ofRule call.2))
          LooseProgram.empty = .ok (.ofProgram p) ∧
        (LooseProgram.ofProgram p).haltAfterLast = .ofProgram p.haltAfterLast := by
  intro p
  have hrules : p.rules? state = some (rulesAt state calls ++ [rule]) :=
    rules?_ofRules_concat_self calls state rule
  have hlast : p.lastState? = ((calls ++ [(state, rule)]).map (·.1)).eraseDups.getLast? := by
    rw [lastState?_eq_getLast?, states_ofRules]
  obtain ⟨newest, hnewest⟩ : ∃ newest, p.lastState? = some newest := by
    have hmem : state ∈ (calls ++ [(state, rule)]).map (·.1) := by simp
    rw [← Option.isSome_iff_exists, hlast, List.getLast?_isSome]
    exact List.ne_nil_of_mem (List.mem_eraseDups.2 hmem)
  have hredirects : Redirects newest p p.haltAfterLast :=
    (isRegular_ofRules _).redirects_haltAfterLast hnewest
  have hstate := getLast?_eraseDups_concat_eq_some_iff (calls.map (·.1)) state
  rw [hlast] at hnewest
  refine ⟨hrules, newest, hnewest, hredirects, hredirects.length_rules, ?_, ?_,
    LooseProgram.foldlM_add?_eq_ofRules _, LooseProgram.haltAfterLast_ofProgram p⟩
  · rw [hredirects.redirects_iff, haltsIn_iff hrules]
  · rw [List.map_append, List.map_singleton] at hnewest
    rw [← hstate, hnewest, Option.some_inj]

/-- Each of two states is called twice in turn, and the last call goes to the newer one. -/
theorem haltAfterLast_redirects_in_turn :
    let p := ofRules [(4, ⟨1, .right, 9⟩), (-2, ⟨2, .down, 9⟩), (4, ⟨3, .left, 9⟩),
      (-2, ⟨5, .up, 9⟩)]
    Redirects (-2) p p.haltAfterLast ∧
      p.haltAfterLast.rules? (-2) = some [⟨2, .down, 9⟩, ⟨5, .up, -1⟩] := by
  intro p
  obtain ⟨-, newest, -, -, -, hredirects, hnewest, -⟩ := haltAfterLast_redirects
    [(4, ⟨1, .right, 9⟩), (-2, ⟨2, .down, 9⟩), (4, ⟨3, .left, 9⟩)] (-2) ⟨5, .up, 9⟩
  exact ⟨hredirects.2 (.inl (hnewest.2 (.inr (by decide)))), by decide⟩

/-- The last call goes back to the older of two states, and the rule of the call before it is
redirected. -/
theorem haltAfterLast_misses_last_call :
    let p := ofRules [(0, ⟨1, .right, 5⟩), (7, ⟨2, .down, 5⟩), (0, ⟨3, .left, 5⟩)]
    p.haltAfterLast = ⟨[(0, [⟨1, .right, 5⟩, ⟨3, .left, 5⟩]), (7, [⟨2, .down, -1⟩])]⟩ ∧
      ¬ Redirects 0 p p.haltAfterLast := by
  intro p
  have hhalt : p.haltAfterLast =
      ⟨[(0, [⟨1, .right, 5⟩, ⟨3, .left, 5⟩]), (7, [⟨2, .down, -1⟩])]⟩ := by decide
  refine ⟨hhalt, fun h => ?_⟩
  have hrules : p.rules? 0 = some ([⟨1, .right, 5⟩] ++ [⟨3, .left, 5⟩]) := rfl
  have hstay : p.haltAfterLast.rules? 0 = p.rules? 0 := by decide
  exact absurd ((haltsIn_iff hrules).1 (h.haltsIn hstay)) (by decide)

end Program

end Turmite
