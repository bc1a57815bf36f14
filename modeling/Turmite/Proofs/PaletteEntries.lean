import Mathlib.Algebra.BigOperators.Group.List.Basic
import Turmite.Palette.Nearest
import Turmite.Proofs.Success

/-!
# Entries of a palette

A nested list that is an array has as many items as its extents say (`Json.length_leaves`), so a
palette that can be read for colors of three channels has entries, all of three channels or all of
one (`Palette.usable_of_ofJson?`), and one of them is nearest to each color
(`Palette.exists_nearest?`).
-/

namespace Turmite

namespace Json

/-! ## Items of arrays -/

theorem eq_of_mem_of_commonShape? {parts : List (List Nat)} {inner : List Nat}
    (h : commonShape? parts = .ok inner) : ∀ part ∈ parts, part = inner := by
  cases parts with
  | nil => simp
  | cons first others =>
    simp only [commonShape?] at h
    split_ifs at h with hall
    cases h
    simpa using hall

mutual

/-- An array has as many items as its extents say. -/
theorem length_leaves : ∀ (v : Json) {shape : List Nat}, v.extents? = .ok shape →
    v.leaves.length = shape.prod
  | arr items, shape, h => by
    rw [extents?] at h
    obtain ⟨parts, hparts, h⟩ := bind_eq_ok.1 h
    obtain ⟨inner, hinner, h⟩ := bind_eq_ok.1 h
    obtain rfl := pure_eq_ok.1 h
    rw [leaves, List.prod_cons]
    refine length_leavesOf items hparts fun part hpart => ?_
    rw [eq_of_mem_of_commonShape? hinner part hpart]
  | null, _, h => by cases h; rfl
  | bool _, _, h => by cases h; rfl
  | int _, _, h => by cases h; rfl
  | float _, _, h => by cases h; rfl
  | str _, _, h => by cases h; rfl
  | obj _, _, h => by cases h; rfl

theorem length_leavesOf : ∀ (items : List Json) {parts : List (List Nat)} {n : Nat},
    extentsOf? items = .ok parts → (∀ part ∈ parts, part.prod = n) →
      (leavesOf items).length = items.length * n
  | [], _, _, _, _ => (Nat.zero_mul _).symm
  | v :: items, parts, n, h, hn => by
    rw [extentsOf?] at h
    obtain ⟨first, hfirst, h⟩ := bind_eq_ok.1 h
    obtain ⟨others, hothers, h⟩ := bind_eq_ok.1 h
    obtain rfl := pure_eq_ok.1 h
    obtain ⟨hv, hitems⟩ := List.forall_mem_cons.1 hn
    rw [leavesOf, List.length_append, length_leaves v hfirst, hv,
      length_leavesOf items hothers hitems, List.length_cons, Nat.succ_mul, Nat.add_comm]

end

/-- Where an array has parts with extents, it has parts. -/
theorem pos_of_extents? {v : Json} {count : Nat} {inner : List Nat}
    (h : v.extents? = .ok (count :: inner)) (hinner : inner ≠ []) : 0 < count := by
  cases v with
  | arr items =>
    rw [extents?] at h
    obtain ⟨parts, hparts, h⟩ := bind_eq_ok.1 h
    obtain ⟨inner', hcommon, h⟩ := bind_eq_ok.1 h
    obtain ⟨rfl, rfl⟩ := List.cons.inj (pure_eq_ok.1 h)
    refine List.length_pos_iff.2 ?_
    rintro rfl
    cases hparts
    cases hcommon
    exact hinner rfl
  | _ => cases h

theorem shape?_eq_ok {v : Json} {shape : List Nat} (h : v.shape? = .ok shape) :
    v.extents? = .ok shape := by
  unfold shape? at h
  obtain ⟨extents, hextents, h⟩ := bind_eq_ok.1 h
  obtain ⟨_, -, h⟩ := bind_eq_ok.1 h
  obtain rfl := pure_eq_ok.1 h
  exact hextents

end Json

namespace Samples

theorem ofJson?_eq_ok {v : Json} {a : Samples} (h : ofJson? v = .ok a) :
    v.extents? = .ok a.shape ∧ a.values.length = a.shape.prod := by
  unfold ofJson? at h
  obtain ⟨shape, hshape, h⟩ := bind_eq_ok.1 h
  obtain ⟨values, hvalues, h⟩ := bind_eq_ok.1 h
  obtain rfl := pure_eq_ok.1 h
  have hextents := Json.shape?_eq_ok hshape
  exact ⟨hextents, (length_of_mapM_eq_ok hvalues).trans (Json.length_leaves v hextents)⟩

/-- The rows of a list that is long enough for them have the same length. -/
theorem length_of_mem_cut {width count : Nat} {values row : List Float}
    (hlength : values.length = count * width) (h : row ∈ cut width values count) :
    row.length = width := by
  induction count generalizing values with
  | zero => simp [cut] at h
  | succ count ih =>
    rw [Nat.succ_mul] at hlength
    rcases List.mem_cons.1 h with rfl | h
    · rw [List.length_take]
      omega
    · exact ih (by rw [List.length_drop]; omega) h

end Samples

/-! ## Palettes -/

namespace Palette

/-- A palette for colors of three channels: there are entries, all of three channels, or all of one
that meets each channel. -/
structure Usable (entries : List Channels) : Prop where
  ne_nil : entries ≠ []
  length : ∃ channels, (channels = 3 ∨ channels = 1) ∧ ∀ entry ∈ entries, entry.length = channels

/-- A palette that can be read can be used. -/
theorem usable_of_ofJson? {v : Json} {entries : List Channels} (h : ofJson? v = .ok entries) :
    Usable entries := by
  unfold ofJson? at h
  obtain ⟨⟨shape, values⟩, ha, h⟩ := bind_eq_ok.1 h
  obtain ⟨hextents, hvalues⟩ := Samples.ofJson?_eq_ok ha
  simp only at hextents hvalues
  simp only [Samples.entries?, List.reverse_singleton] at h
  obtain ⟨_, hmeets, h⟩ := bind_eq_ok.1 h
  obtain ⟨_, hlevels, h⟩ := bind_eq_ok.1 h
  obtain rfl := pure_eq_ok.1 h
  rw [ensure_eq_ok] at hmeets hlevels
  match shape with
  | [] =>
    refine ⟨List.cons_ne_nil _ _, 1, .inr rfl, ?_⟩
    simpa [Samples.rows] using hvalues
  | [width] =>
    refine ⟨List.cons_ne_nil _ _, width, ?_, ?_⟩
    · simp only [Samples.meets, List.reverse_singleton, Bool.and_true, Bool.or_eq_true,
        decide_eq_true_eq] at hmeets
      omega
    · simpa [Samples.rows] using hvalues
  | [count, width] =>
    have hcount := Json.pos_of_extents? hextents (List.cons_ne_nil _ _)
    refine ⟨?_, width, ?_, ?_⟩
    · rw [← List.length_pos_iff]
      exact (Samples.length_cut width values count).symm ▸ hcount
    · simp [Samples.meets] at hmeets
      omega
    · exact fun entry hentry => Samples.length_of_mem_cut (by simpa using hvalues) hentry
  | a :: b :: d :: rest =>
    simp at hlevels

theorem exists_differences? {color entry : Channels} (hc : color.length = 3)
    (he : entry.length = 3 ∨ entry.length = 1) : ∃ d, differences? color entry = some d := by
  obtain ⟨a, b, c, rfl⟩ := List.length_eq_three.1 hc
  rcases he with he | he
  · obtain ⟨x, y, z, rfl⟩ := List.length_eq_three.1 he
    exact ⟨_, rfl⟩
  · obtain ⟨x, rfl⟩ := List.length_eq_one_iff.1 he
    exact ⟨_, rfl⟩

theorem exists_firstLeast? {distances : List Float} (h : distances ≠ []) :
    ∃ place < distances.length, firstLeast? distances = some place := by
  obtain ⟨d, r, rfl⟩ := List.exists_cons_of_ne_nil h
  refine ⟨_, ?_, rfl⟩
  rw [List.length_cons, Nat.add_comm]
  exact leastFrom_lt 0 1 d r Nat.one_pos

/-- One of the entries of a palette is nearest to a color. -/
theorem exists_nearest? {entries : List Channels} (h : Usable entries) {color : Channels}
    (hc : color.length = 3) : ∃ place < entries.length, nearest? entries color = .ok place := by
  obtain ⟨hne, channels, hchannels, hlength⟩ := h
  have hsame : (entries.all fun entry => entry.length = (entries.headD []).length) = true := by
    obtain ⟨first, others, rfl⟩ := List.exists_cons_of_ne_nil hne
    rw [List.all_eq_true]
    intro entry hentry
    rw [decide_eq_true_eq, hlength entry hentry, List.headD_cons, hlength first List.mem_cons_self]
  obtain ⟨distances, hdistances, hcount⟩ :
      ∃ r, (entries.mapM fun entry => (differences? color entry).map norm) = some r ∧
        r.length = entries.length := by
    refine exists_mapM_eq_some fun entry hentry => ?_
    obtain ⟨d, hd⟩ := exists_differences? hc (by rw [hlength entry hentry]; exact hchannels)
    exact ⟨norm d, by rw [hd]; rfl⟩
  have hsome : distances ≠ [] := by
    rintro rfl
    exact hne (List.eq_nil_of_length_eq_zero hcount.symm)
  obtain ⟨place, hplace, hleast⟩ := exists_firstLeast? hsome
  refine ⟨place, hcount ▸ hplace, ?_⟩
  unfold nearest?
  simp only [hsame, hdistances, Option.bind_some, hleast]

end Palette
end Turmite
