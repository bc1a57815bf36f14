import Turmite.Proofs.JsonLexing
import Turmite.Proofs.Success

/-!
# Written values read back

The tokens of a value are read as the value, but for its numbers, which are read from their texts,
and for a key that stands twice (`readsBack`, `parse?_write`). The induction follows the printer:
an item after the first is read once the one before it is. Two steps for each token are enough, and
no bracket is too deep for limits that the value keeps to.
-/

namespace Turmite.Json

open Token

mutual

/-- The value that a written value is read as: numbers by their texts, and members entered one after
the other. -/
def reread : Json → Json
  | float x => float (numberRead x)
  | arr items => arr (rereadItems items)
  | obj members => obj (Members.ofList (rereadMembers members))
  | v => v

/-- The values that written items are read as. -/
def rereadItems : List Json → List Json
  | [] => []
  | v :: items => reread v :: rereadItems items

/-- The pairs that written members are read as. -/
def rereadMembers : List (Text × Json) → List (Text × Json)
  | [] => []
  | (key, v) :: members => (key, reread v) :: rereadMembers members

end

/-- Inside a bracket there is room for a level less. -/
theorem exists_inside? {levels : Option Nat} {n : Nat} (h : ∀ most ∈ levels, n + 1 ≤ most) :
    ∃ inner, inside? levels = .ok inner ∧ ∀ most ∈ inner, n ≤ most := by
  cases levels with
  | none => exact ⟨none, rfl, by simp⟩
  | some most =>
    cases most with
    | zero => exact absurd (h 0 rfl) (by omega)
    | succ most =>
      refine ⟨some most, rfl, fun m hm => ?_⟩
      obtain rfl := Option.some.inj hm
      exact Nat.le_of_succ_le_succ (h _ rfl)

/-- What is not too deep inside a bracket is not too deep with it. -/
theorem depth_le_of_inside? {levels inner : Option Nat} {n : Nat} (h : inside? levels = .ok inner)
    (hinner : ∀ most ∈ inner, n ≤ most) : ∀ most ∈ levels, n + 1 ≤ most := by
  cases levels with
  | none => simp
  | some most =>
    cases most with
    | zero => cases h
    | succ most =>
      cases h
      simpa using hinner

/-- A value starts with a token that ends no array. -/
theorem exists_tokens_cons (v : Json) : ∃ t r, v.tokens = t :: r ∧ t ≠ .arrayEnd := by
  cases v with
  | arr items => cases items <;> exact ⟨_, _, rfl, by simp⟩
  | obj members => cases members <;> exact ⟨_, _, rfl, by simp⟩
  | _ => exact ⟨_, _, rfl, by simp⟩

theorem length_tokens_pos (v : Json) : 0 < v.tokens.length := by
  obtain ⟨t, r, h, -⟩ := exists_tokens_cons v
  rw [h]
  exact Nat.succ_pos _

section Steps

variable {levels inner : Option Nat} {steps : Nat}

/-- An array that is not empty is read item by item. -/
theorem value?_arrayStart {items : List Json} {s r : List Token}
    (hin : inside? levels = .ok inner) (hs : ∃ t u, s = t :: u ∧ t ≠ .arrayEnd)
    (hitems : items? steps inner s = .ok (items, r)) :
    value? (steps + 1) levels (.arrayStart :: s) = .ok (arr items, r) := by
  obtain ⟨t, u, rfl, ht⟩ := hs
  simp only [value?, hin, bind, Except.bind]
  split
  · rename_i r' he
    exact absurd (List.cons.inj he).1 ht
  · rw [hitems]
    rfl

theorem value?_objectStart {pairs : Members} {key : Text} {s r : List Token}
    (hin : inside? levels = .ok inner)
    (hmembers : members? steps inner (.text key :: s) = .ok (pairs, r)) :
    value? (steps + 1) levels (.objectStart :: .text key :: s) =
      .ok (obj (Members.ofList pairs), r) := by
  simp only [value?, hin, bind, Except.bind, hmembers, pure, Except.pure]

/-- The items go on after a comma. -/
theorem items?_comma {v : Json} {items : List Json} {s t r : List Token}
    (hv : value? steps levels s = .ok (v, .comma :: t))
    (hitems : items? steps levels t = .ok (items, r)) :
    items? (steps + 1) levels s = .ok (v :: items, r) := by
  simp only [items?, hv, bind, Except.bind, hitems, pure, Except.pure]

theorem items?_arrayEnd {v : Json} {s r : List Token}
    (hv : value? steps levels s = .ok (v, .arrayEnd :: r)) :
    items? (steps + 1) levels s = .ok ([v], r) := by
  simp only [items?, hv, bind, Except.bind, pure, Except.pure]

/-- The members go on after a comma. -/
theorem members?_comma {key : Text} {v : Json} {pairs : Members} {s t r : List Token}
    (hv : value? steps levels s = .ok (v, .comma :: t))
    (hpairs : members? steps levels t = .ok (pairs, r)) :
    members? (steps + 1) levels (.text key :: .colon :: s) = .ok ((key, v) :: pairs, r) := by
  simp only [members?, hv, bind, Except.bind, hpairs, pure, Except.pure]

theorem members?_objectEnd {key : Text} {v : Json} {s r : List Token}
    (hv : value? steps levels s = .ok (v, .objectEnd :: r)) :
    members? (steps + 1) levels (.text key :: .colon :: s) = .ok ([(key, v)], r) := by
  simp only [members?, hv, bind, Except.bind, pure, Except.pure]

end Steps

/-- Inside some levels a value is read from its tokens, with two steps for each. -/
def ReadsBack (levels : Option Nat) (v : Json) : Prop :=
  ∀ (steps : Nat) (r : List Token), 2 * v.tokens.length ≤ steps →
    value? steps levels (v.tokens ++ r) = .ok (v.reread, r)

mutual

/-- A value is read from its tokens inside as many levels as it has. -/
theorem readsBack : ∀ (v : Json) (levels : Option Nat),
    (∀ most ∈ levels, v.depth ≤ most) → ReadsBack levels v
  | v, _, _, 0, _, hs => absurd (length_tokens_pos v) (by omega)
  | null, _, _, _ + 1, _, _ => rfl
  | bool true, _, _, _ + 1, _, _ => rfl
  | bool false, _, _, _ + 1, _, _ => rfl
  | int _, _, _, _ + 1, _, _ => rfl
  | float _, _, _, _ + 1, _, _ => rfl
  | str _, _, _, _ + 1, _, _ => rfl
  | arr [], levels, hd, _ + 1, r, _ => by
    obtain ⟨inner, hin, -⟩ := exists_inside? hd
    simp only [tokens, List.cons_append, value?, hin, bind, Except.bind]
    rfl
  | arr (v :: items), levels, hd, steps + 1, r, hs => by
    obtain ⟨inner, hin, hinner⟩ := exists_inside? hd
    simp only [itemDepth, Nat.max_le] at hinner
    simp only [tokens, List.length_cons, List.length_append] at hs
    have hv : ReadsBack inner v := readsBack v inner fun most hm => (hinner most hm).1
    have hitems := items?_tokens items v inner hv (fun most hm => (hinner most hm).2) steps r
      (by omega)
    have hfirst : ∃ t u, v.tokens ++ (itemTokens items ++ .arrayEnd :: r) = t :: u ∧
        t ≠ .arrayEnd := by
      obtain ⟨t, u, hv, ht⟩ := exists_tokens_cons v
      exact ⟨t, _, by rw [hv, List.cons_append], ht⟩
    simpa [tokens, reread, rereadItems] using value?_arrayStart hin hfirst hitems
  | obj [], levels, hd, _ + 1, r, _ => by
    obtain ⟨inner, hin, -⟩ := exists_inside? hd
    simp only [tokens, List.cons_append, value?, hin, bind, Except.bind]
    rfl
  | obj ((key, v) :: members), levels, hd, steps + 1, r, hs => by
    obtain ⟨inner, hin, hinner⟩ := exists_inside? hd
    simp only [memberDepth, Nat.max_le] at hinner
    simp only [tokens, List.length_cons, List.length_append] at hs
    have hv : ReadsBack inner v := readsBack v inner fun most hm => (hinner most hm).1
    have hmembers := members?_tokens members key v inner hv (fun most hm => (hinner most hm).2)
      steps r (by omega)
    simpa [tokens, reread, rereadMembers] using value?_objectStart hin hmembers

/-- Items are read up to the end of the array, if the first of them is. -/
theorem items?_tokens : ∀ (items : List Json) (v : Json) (levels : Option Nat),
    ReadsBack levels v → (∀ most ∈ levels, itemDepth items ≤ most) →
    ∀ (steps : Nat) (r : List Token),
    2 * (v.tokens.length + (itemTokens items).length) + 1 ≤ steps →
    items? steps levels (v.tokens ++ (itemTokens items ++ .arrayEnd :: r)) =
      .ok (v.reread :: rereadItems items, r)
  | _, _, _, _, _, 0, _, hs => absurd hs (by omega)
  | [], v, levels, hv, _, steps + 1, r, hs =>
    items?_arrayEnd (hv steps _ (by omega))
  | w :: items, v, levels, hv, hd, steps + 1, r, hs => by
    simp only [itemDepth, Nat.max_le] at hd
    simp only [itemTokens, List.length_cons, List.length_append] at hs
    have hw : ReadsBack levels w := readsBack w levels fun most hm => (hd most hm).1
    have hitems := items?_tokens items w levels hw (fun most hm => (hd most hm).2) steps r
      (by omega)
    have hfirst := hv steps (.comma :: (w.tokens ++ (itemTokens items ++ .arrayEnd :: r)))
      (by omega)
    simpa [itemTokens, rereadItems] using items?_comma hfirst hitems

/-- Members are read up to the end of the object, if the value of the first of them is. -/
theorem members?_tokens : ∀ (members : List (Text × Json)) (key : Text) (v : Json)
    (levels : Option Nat), ReadsBack levels v → (∀ most ∈ levels, memberDepth members ≤ most) →
    ∀ (steps : Nat) (r : List Token),
    2 * (v.tokens.length + (memberTokens members).length) + 1 ≤ steps →
    members? steps levels
        (.text key :: .colon :: (v.tokens ++ (memberTokens members ++ .objectEnd :: r))) =
      .ok ((key, v.reread) :: rereadMembers members, r)
  | _, _, _, _, _, _, 0, _, hs => absurd hs (by omega)
  | [], key, v, levels, hv, _, steps + 1, r, hs =>
    members?_objectEnd (hv steps _ (by omega))
  | (key', w) :: members, key, v, levels, hv, hd, steps + 1, r, hs => by
    simp only [memberDepth, Nat.max_le] at hd
    simp only [memberTokens, List.length_cons, List.length_append] at hs
    have hw : ReadsBack levels w := readsBack w levels fun most hm => (hd most hm).1
    have hmembers := members?_tokens members key' w levels hw (fun most hm => (hd most hm).2)
      steps r (by omega)
    have hfirst := hv steps (.comma :: .text key' :: .colon ::
      (w.tokens ++ (memberTokens members ++ .objectEnd :: r))) (by omega)
    simpa [memberTokens, rereadMembers] using members?_comma hfirst hmembers

end

/-! ## Documents -/

/-- A value within limits: no integer is too long and no bracket too deep. -/
structure Within (v : Json) (limits : Limits) : Prop where
  digits : ∀ n ∈ v.integers, isWritable limits n = true
  depth : ∀ most ∈ limits.depth, v.depth ≤ most

theorem within_unbounded (v : Json) : v.Within .unbounded :=
  ⟨fun _ _ => rfl, by simp [Limits.unbounded]⟩

mutual

/-- Of a value that is not too deep all that can be too long is an integer. -/
theorem ensureWritable_of_depth (limits : Limits) : ∀ {v : Json} {levels : Option Nat},
    (∀ most ∈ levels, v.depth ≤ most) → v.ensureWritable limits levels =
      if v.integers.all (isWritable limits) then .ok () else .error .numberTooLong
  | null, _, _ => rfl
  | bool _, _, _ => rfl
  | int n, _, _ => by
    simp only [ensureWritable, integers, List.all_cons, List.all_nil, Bool.and_true]
  | float _, _, _ => rfl
  | str _, _, _ => rfl
  | arr items, _, hd => by
    obtain ⟨inner, hin, hinner⟩ := exists_inside? hd
    simp only [ensureWritable, hin]
    exact ensureItemsWritable_of_depth limits hinner
  | obj members, _, hd => by
    obtain ⟨inner, hin, hinner⟩ := exists_inside? hd
    simp only [ensureWritable, hin]
    exact ensureMembersWritable_of_depth limits hinner

theorem ensureItemsWritable_of_depth (limits : Limits) : ∀ {items : List Json}
    {levels : Option Nat}, (∀ most ∈ levels, itemDepth items ≤ most) →
      ensureItemsWritable limits levels items =
        if (itemIntegers items).all (isWritable limits) then .ok () else .error .numberTooLong
  | [], _, _ => rfl
  | v :: items, levels, hd => by
    simp only [itemDepth, Nat.max_le] at hd
    have hv := ensureWritable_of_depth limits fun most hmost => (hd most hmost).1
    have hitems := ensureItemsWritable_of_depth limits fun most hmost => (hd most hmost).2
    simp only [ensureItemsWritable, itemIntegers, List.all_append, hv, hitems]
    cases v.integers.all (isWritable limits) <;> rfl

theorem ensureMembersWritable_of_depth (limits : Limits) : ∀ {members : Members}
    {levels : Option Nat}, (∀ most ∈ levels, memberDepth members ≤ most) →
      ensureMembersWritable limits levels members =
        if (memberIntegers members).all (isWritable limits) then .ok () else .error .numberTooLong
  | [], _, _ => rfl
  | (_, v) :: members, levels, hd => by
    simp only [memberDepth, Nat.max_le] at hd
    have hv := ensureWritable_of_depth limits fun most hmost => (hd most hmost).1
    have hmembers := ensureMembersWritable_of_depth limits fun most hmost => (hd most hmost).2
    simp only [ensureMembersWritable, memberIntegers, List.all_append, hv, hmembers]
    cases v.integers.all (isWritable limits) <;> rfl

end

mutual

/-- A value that is written is not too deep. -/
theorem depth_le_of_ensureWritable {limits : Limits} : ∀ {v : Json} {levels : Option Nat},
    v.ensureWritable limits levels = .ok () → ∀ most ∈ levels, v.depth ≤ most
  | null, _, _ => fun _ _ => Nat.zero_le _
  | bool _, _, _ => fun _ _ => Nat.zero_le _
  | int _, _, _ => fun _ _ => Nat.zero_le _
  | float _, _, _ => fun _ _ => Nat.zero_le _
  | str _, _, _ => fun _ _ => Nat.zero_le _
  | arr items, levels, h => by
    obtain ⟨inner, hin, hitems⟩ := bind_eq_ok.1 h
    exact depth_le_of_inside? hin (itemDepth_le_of_ensureItemsWritable hitems)
  | obj members, levels, h => by
    obtain ⟨inner, hin, hmembers⟩ := bind_eq_ok.1 h
    exact depth_le_of_inside? hin (memberDepth_le_of_ensureMembersWritable hmembers)

theorem itemDepth_le_of_ensureItemsWritable {limits : Limits} : ∀ {items : List Json}
    {levels : Option Nat}, ensureItemsWritable limits levels items = .ok () →
      ∀ most ∈ levels, itemDepth items ≤ most
  | [], _, _ => fun _ _ => Nat.zero_le _
  | v :: items, levels, h => by
    obtain ⟨_, hv, hitems⟩ := bind_eq_ok.1 h
    exact fun most hmost => Nat.max_le.2 ⟨depth_le_of_ensureWritable hv most hmost,
      itemDepth_le_of_ensureItemsWritable hitems most hmost⟩

theorem memberDepth_le_of_ensureMembersWritable {limits : Limits} : ∀ {members : Members}
    {levels : Option Nat}, ensureMembersWritable limits levels members = .ok () →
      ∀ most ∈ levels, memberDepth members ≤ most
  | [], _, _ => fun _ _ => Nat.zero_le _
  | (_, v) :: members, levels, h => by
    obtain ⟨_, hv, hmembers⟩ := bind_eq_ok.1 h
    exact fun most hmost => Nat.max_le.2 ⟨depth_le_of_ensureWritable hv most hmost,
      memberDepth_le_of_ensureMembersWritable hmembers most hmost⟩

end

/-- What is written within limits is what keeps to them. -/
theorem within_of_ensureWritable {limits : Limits} {v : Json}
    (h : v.ensureWritable limits limits.depth = .ok ()) : v.Within limits := by
  have hdepth := depth_le_of_ensureWritable h
  refine ⟨List.all_eq_true.1 ?_, hdepth⟩
  by_contra hlong
  rw [ensureWritable_of_depth limits hdepth, if_neg hlong] at h
  cases h

theorem Within.ensureWritable {limits : Limits} {v : Json} (h : v.Within limits) :
    v.ensureWritable limits limits.depth = .ok () := by
  rw [ensureWritable_of_depth limits h.depth, if_pos (List.all_eq_true.2 h.digits)]

/-- What is written is read again, within limits. -/
theorem parse?_write {layout : Layout} {limits : Limits} {v : Json} (hl : layout.IsBlank)
    (ht : ∀ t ∈ v.texts, t.IsEncodable) (h : v.Within limits) :
    parse? limits (write layout 0 v).scalars = .ok v.reread := by
  have hv := readsBack v limits.depth h.depth (2 * v.tokens.length) [] (Nat.le_refl _)
  rw [List.append_nil] at hv
  simp only [parse?, ofChars_write hl ht h.digits, hv, bind, Except.bind]
  rfl

/-! ## Values that are read as themselves -/

theorem rereadItems_eq_map (items : List Json) : rereadItems items = items.map reread := by
  induction items with
  | nil => rfl
  | cons v items ih => rw [rereadItems, ih, List.map_cons]

theorem rereadMembers_eq_map (members : Members) :
    rereadMembers members = members.map fun (key, v) => (key, reread v) := by
  induction members with
  | nil => rfl
  | cons head members ih => rw [rereadMembers, ih, List.map_cons]

theorem Members.insert_of_not_mem {key : Text} {members : Members} (value : Json)
    (h : key ∉ members.map (·.1)) : members.insert key value = members ++ [(key, value)] := by
  induction members with
  | nil => rfl
  | cons head members ih =>
    obtain ⟨k, v⟩ := head
    rw [List.map_cons, List.mem_cons, not_or] at h
    rw [Members.insert, if_neg (Ne.symm h.1), ih h.2, List.cons_append]

theorem Members.foldl_insert (entered members : Members)
    (h : ((entered ++ members).map (·.1)).Nodup) :
    members.foldl (fun members (key, value) => members.insert key value) entered =
      entered ++ members := by
  induction members generalizing entered with
  | nil => simp
  | cons head members ih =>
    obtain ⟨key, value⟩ := head
    have hkey : key ∉ entered.map (·.1) := by
      intro hmem
      rw [List.map_append, List.nodup_append] at h
      exact h.2.2 _ hmem _ (by simp) rfl
    have hstep := ih (entered ++ [(key, value)]) (by simpa using h)
    rw [← Members.insert_of_not_mem value hkey] at hstep
    rw [List.foldl_cons, hstep, Members.insert_of_not_mem value hkey, List.append_assoc]
    rfl

/-- Members with different keys are entered as they stand. -/
theorem Members.ofList_of_nodup {members : Members} (h : (members.map (·.1)).Nodup) :
    Members.ofList members = members :=
  Members.foldl_insert [] members h

end Turmite.Json
