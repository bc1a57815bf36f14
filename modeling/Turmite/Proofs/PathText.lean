import Mathlib.Data.List.Basic
import Mathlib.Tactic.SplitIfs
import Turmite.Path

/-!
# Paths and their texts

The parts of a text between slashes are got back from the text that joins them, so a path that was
read from a text is read again from its own (`Path.ofText_toText`). What is put behind a text that
names a file is put behind the last component.
-/

namespace Turmite

namespace Text

variable {mark : CodePoint}

/-- A code point more begins a part or goes with the first one. -/
theorem exists_split_cons (mark c : CodePoint) (t : Text) :
    ∃ first others, split mark t = first :: others ∧
      split mark (c :: t) =
        if c = mark then [] :: first :: others else (c :: first) :: others := by
  rcases h : split mark t with _ | ⟨first, others⟩
  · exact absurd h (split_ne_nil mark t)
  · refine ⟨first, others, rfl, ?_⟩
    rw [split, h]

theorem split_of_not_mem {t : Text} (h : mark ∉ t) : split mark t = [t] := by
  induction t with
  | nil => rfl
  | cons c t ih =>
    rw [List.mem_cons, not_or] at h
    obtain ⟨first, others, ht, hct⟩ := exists_split_cons mark c t
    rw [ih h.2] at ht
    cases ht
    rw [hct, if_neg (Ne.symm h.1)]

/-- A part and a mark in front of a text. -/
theorem split_append_mark {part : Text} (h : mark ∉ part) (t : Text) :
    split mark (part ++ mark :: t) = part :: split mark t := by
  induction part with
  | nil =>
    obtain ⟨first, others, ht, hct⟩ := exists_split_cons mark mark t
    rw [List.nil_append, hct, if_pos rfl, ht]
  | cons c part ih =>
    rw [List.mem_cons, not_or] at h
    obtain ⟨first, others, ht, hct⟩ := exists_split_cons mark c (part ++ mark :: t)
    rw [ih h.2] at ht
    cases ht
    rw [List.cons_append, hct, if_neg (Ne.symm h.1)]

/-- Parts that hold no mark are got back from the text that joins them. -/
theorem split_join {part : Text} {parts : List Text} (h : ∀ p ∈ part :: parts, mark ∉ p) :
    split mark (join [mark] (part :: parts)) = part :: parts := by
  induction parts generalizing part with
  | nil => exact split_of_not_mem (h part List.mem_cons_self)
  | cons next parts ih =>
    obtain ⟨hpart, hparts⟩ := List.forall_mem_cons.1 h
    have hjoin : join [mark] (part :: next :: parts) =
        part ++ [mark] ++ join [mark] (next :: parts) := rfl
    rw [hjoin, List.append_assoc, List.singleton_append, split_append_mark hpart, ih hparts]

/-- What holds no mark goes with the last part. -/
theorem getLast?_split_append {ending : Text} (h : mark ∉ ending) (t : Text) :
    ∃ part, (split mark (t ++ ending)).getLast? = some (part ++ ending) := by
  induction t with
  | nil => exact ⟨[], by rw [List.nil_append, split_of_not_mem h]; rfl⟩
  | cons c t ih =>
    obtain ⟨part, hpart⟩ := ih
    obtain ⟨first, others, ht, hct⟩ := exists_split_cons mark c (t ++ ending)
    rw [ht] at hpart
    rw [List.cons_append, hct]
    split
    · exact ⟨part, by rw [List.getLast?_cons_cons, hpart]⟩
    · cases others with
      | nil =>
        obtain rfl : first = part ++ ending := by simpa using hpart
        exact ⟨c :: part, rfl⟩
      | cons second others =>
        rw [List.getLast?_cons_cons] at hpart
        exact ⟨part, by rw [List.getLast?_cons_cons, hpart]⟩

theorem not_mem_of_mem_split {t part : Text} (h : part ∈ split mark t) : mark ∉ part := by
  induction t generalizing part with
  | nil =>
    cases List.mem_singleton.1 h
    exact List.not_mem_nil
  | cons c t ih =>
    obtain ⟨first, others, ht, hct⟩ := exists_split_cons mark c t
    rw [ht] at ih
    rw [hct] at h
    split at h
    · rcases List.mem_cons.1 h with rfl | h
      · exact List.not_mem_nil
      · exact ih h
    · rename_i hc
      rcases List.mem_cons.1 h with rfl | h
      · rw [List.mem_cons, not_or]
        exact ⟨Ne.symm hc, ih List.mem_cons_self⟩
      · exact ih (List.mem_cons_of_mem first h)

/-- What is no mark is found in a text exactly if it is in one of the parts. -/
theorem mem_iff_exists_mem_split {c : CodePoint} (h : c ≠ mark) {t : Text} :
    c ∈ t ↔ ∃ part ∈ split mark t, c ∈ part := by
  induction t with
  | nil => simp [split]
  | cons d t ih =>
    obtain ⟨first, others, ht, hdt⟩ := exists_split_cons mark d t
    rw [List.mem_cons, ih, ht, hdt]
    split_ifs with hd
    · simp [hd, h]
    · simp [or_assoc]

end Text

namespace Path

/-- A path whose components say something and hold no slash. -/
def IsSound (p : Path) : Prop :=
  ∀ part ∈ p.parts, part ≠ [] ∧ part ≠ ("." : Text) ∧ CodePoint.scalar '/' ∉ part

theorem isSound_ofText (t : Text) : (ofText t).IsSound := by
  intro part hpart
  obtain ⟨hmem, hkept⟩ := List.mem_filter.1 hpart
  have hkept := of_decide_eq_true hkept
  exact ⟨hkept.1, hkept.2, Text.not_mem_of_mem_split hmem⟩

theorem IsSound.child {p : Path} (h : p.IsSound) (t : Text) : (p.child t).IsSound := by
  unfold Path.child append
  split
  · exact isSound_ofText t
  · intro part hpart
    rcases List.mem_append.1 hpart with hpart | hpart
    · exact h part hpart
    · exact isSound_ofText t part hpart

theorem rootOf_cons_of_ne {c : CodePoint} (h : c ≠ .scalar '/') (t : Text) :
    rootOf (c :: t) = .relative := by
  rw [rootOf] <;> simp [h]

/-- A root in front of a text that begins with none is read as the root. -/
theorem rootOf_append {c : CodePoint} (h : c ≠ .scalar '/') (root : PathRoot) (t : Text) :
    rootOf (rootText root ++ c :: t) = root := by
  cases root with
  | relative => exact rootOf_cons_of_ne h t
  | slash =>
    have hslash : rootOf (.scalar '/' :: c :: t) = .slash := by
      rw [rootOf] <;> simp [h]
    exact hslash
  | doubleSlash =>
    have hslash : rootOf (.scalar '/' :: .scalar '/' :: c :: t) = .doubleSlash := by
      rw [rootOf]
      simp [h]
    exact hslash

theorem components_rootText_append (root : PathRoot) (t : Text) :
    components (rootText root ++ t) = components t := by
  have hslash (t : Text) : components (.scalar '/' :: t) = components t := by
    have hsplit := Text.split_append_mark (List.not_mem_nil (a := CodePoint.scalar '/')) t
    rw [List.nil_append] at hsplit
    unfold components
    rw [hsplit]
    simp
  cases root with
  | relative => rfl
  | slash => exact hslash t
  | doubleSlash => exact (hslash (.scalar '/' :: t)).trans (hslash t)

/-- A sound path is read from its text. -/
theorem IsSound.ofText_toText {p : Path} (h : p.IsSound) : ofText p.toText = p := by
  obtain ⟨root, parts⟩ := p
  cases parts with
  | nil => cases root <;> rfl
  | cons part parts =>
    have hmark : ∀ q ∈ part :: parts, CodePoint.scalar '/' ∉ q := fun q hq => (h q hq).2.2
    have hcomponents : components (Text.join ("/" : Text) (part :: parts)) = part :: parts := by
      unfold components
      rw [show ("/" : Text) = [.scalar '/'] from rfl, Text.split_join hmark]
      apply List.filter_eq_self.2
      intro q hq
      exact decide_eq_true ⟨(h q hq).1, (h q hq).2.1⟩
    have htext : toText ⟨root, part :: parts⟩ =
        rootText root ++ Text.join ("/" : Text) (part :: parts) := by cases root <;> rfl
    obtain ⟨hne, -, hslash⟩ := h part List.mem_cons_self
    obtain ⟨c, cs, rfl⟩ := List.exists_cons_of_ne_nil hne
    obtain ⟨t, ht⟩ : ∃ t, Text.join ("/" : Text) ((c :: cs) :: parts) = c :: t := by
      cases parts <;> exact ⟨_, rfl⟩
    have hc : c ≠ .scalar '/' := fun hc => hslash (hc ▸ List.mem_cons_self)
    have hroot : rootOf (rootText root ++ c :: t) = root := rootOf_append hc root t
    rw [ht] at hcomponents htext
    rw [htext, ofText, hroot, components_rootText_append, hcomponents]

/-! ## Endings -/

/-- The last component ends in a text. -/
def EndsWith (p : Path) (ending : Text) : Prop :=
  ∃ front, p.parts.getLast? = some (front ++ ending)

/-- What is put behind a name is the end of the last component. -/
theorem endsWith_child (p : Path) (t : Text) {ending : Text} (hslash : .scalar '/' ∉ ending)
    (hlong : 1 < ending.length) : (p.child (t ++ ending)).EndsWith ending := by
  obtain ⟨front, hfront⟩ := Text.getLast?_split_append hslash t
  have hlength : 1 < (front ++ ending).length := by
    rw [List.length_append]
    omega
  have hlast : (components (t ++ ending)).getLast? = some (front ++ ending) := by
    obtain ⟨parts, hparts⟩ := List.getLast?_eq_some_iff.1 hfront
    unfold components
    rw [hparts, List.filter_append, List.filter_cons_of_pos]
    · simp
    · apply decide_eq_true
      constructor
      · intro h
        rw [h] at hlength
        exact absurd hlength (by decide)
      · intro h
        rw [h] at hlength
        exact absurd hlength (by decide)
  refine ⟨front, ?_⟩
  unfold Path.child append
  split
  · exact hlast
  · show (p.parts ++ components (t ++ ending)).getLast? = _
    rw [List.getLast?_append, hlast]
    rfl

end Path
end Turmite
