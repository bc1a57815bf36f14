import Turmite.Proofs.PlannedTour

/-!
# Nearest neighbours in order

The points that a nearest-neighbour tour visits between its ends are the other points of the list,
each at its first occurrence (`distinctPoints_eq`), and the points still to be visited keep that
order while visited ones are taken out from among them (`extractLeast_split`). So each visit goes to
the nearest point that is left, the first in the list of those equally near
(`visitsNearest_visits`), and only one order of visits is of that kind (`VisitsNearest.unique`). A
point that is given again changes nothing (`distinctPoints_insert`).
-/

namespace Turmite.Tour

/-! ## First occurrences -/

/-- The points of a list other than the ends, each at its first occurrence. -/
def others (points : List Point) (start finish : Point) : List Point :=
  (points.filter fun p => p ≠ start ∧ p ≠ finish).eraseDups

theorem firstOccurrences_eq (seen points : List Point) :
    firstOccurrences seen points = (points.filter fun p => p ∉ seen).eraseDups := by
  induction points generalizing seen with
  | nil => rfl
  | cons p points ih =>
    unfold firstOccurrences
    by_cases h : p ∈ seen
    · rw [if_pos h, ih, List.filter_cons_of_neg (by simpa using h)]
    · rw [if_neg h, ih, List.filter_cons_of_pos (by simpa using h), List.eraseDups_cons,
        List.filter_filter]
      congr 3
      funext q
      rw [Bool.eq_iff_iff]
      simp [not_or]

theorem distinctPoints_eq (points : List Point) (start finish : Point) :
    distinctPoints points start finish = others points start finish := by
  unfold distinctPoints others
  rw [firstOccurrences_eq]
  simp only [List.mem_cons, List.not_mem_nil, or_false, not_or]

theorem nodup_others (points : List Point) (start finish : Point) :
    (others points start finish).Nodup := by
  rw [← distinctPoints_eq]
  exact nodup_firstOccurrences _ _

theorem firstOccurrences_insert {seen front : List Point} {q : Point}
    (h : q ∈ seen ∨ q ∈ front) (back : List Point) :
    firstOccurrences seen (front ++ q :: back) = firstOccurrences seen (front ++ back) := by
  induction front generalizing seen with
  | nil => exact if_pos (h.resolve_right List.not_mem_nil)
  | cons p front ih =>
    simp only [List.cons_append, firstOccurrences]
    split_ifs with hp
    · refine ih (h.elim Or.inl fun hq => ?_)
      rcases List.mem_cons.1 hq with rfl | hq
      · exact .inl hp
      · exact .inr hq
    · rw [ih]
      rcases h with hq | hq
      · exact .inl (List.mem_cons_of_mem _ hq)
      · rcases List.mem_cons.1 hq with rfl | hq
        · exact .inl List.mem_cons_self
        · exact .inr hq

/-- An end, or a point that stands before, changes nothing where it is inserted. -/
theorem distinctPoints_insert {start finish q : Point} {front : List Point}
    (h : q = start ∨ q = finish ∨ q ∈ front) (back : List Point) :
    distinctPoints (front ++ q :: back) start finish =
      distinctPoints (front ++ back) start finish := by
  refine firstOccurrences_insert ?_ back
  rcases h with rfl | rfl | hq
  · exact .inl List.mem_cons_self
  · exact .inl (List.mem_cons_of_mem _ List.mem_cons_self)
  · exact .inr hq

/-! ## The first of the least -/

/-- Taking out the first point of least cost leaves the others in order: those before it cost more,
those after it not less. -/
theorem extractLeast_split (cost : Point → Nat) (p : Point) (points : List Point) :
    ∃ before after,
      p :: points = before ++ (extractLeast cost p points).1 :: after ∧
      (extractLeast cost p points).2 = before ++ after ∧
      (∀ q ∈ before, cost (extractLeast cost p points).1 < cost q) ∧
      ∀ q ∈ after, cost (extractLeast cost p points).1 ≤ cost q := by
  induction points generalizing p with
  | nil => exact ⟨[], [], rfl, rfl, List.forall_mem_nil _, List.forall_mem_nil _⟩
  | cons q r ih =>
    -- The rest is searched first, so the head is kept where it is as near as the best of the rest.
    obtain ⟨before, after, hsplit, hrest, hbefore, hafter⟩ := ih q
    simp only [extractLeast]
    split_ifs with hless
    · refine ⟨p :: before, after, by rw [hsplit]; rfl, by rw [hrest]; rfl, ?_, hafter⟩
      exact List.forall_mem_cons.2 ⟨hless, hbefore⟩
    · refine ⟨[], q :: r, rfl, rfl, List.forall_mem_nil _, ?_⟩
      rw [hsplit]
      intro x hx
      have hp := Nat.le_of_not_lt hless
      rcases List.mem_append.1 hx with hx | hx
      · exact hp.trans (hbefore x hx).le
      · rcases List.mem_cons.1 hx with rfl | hx
        · exact hp
        · exact hp.trans (hafter x hx)

/-- Of two points that stand in order among different points, the first has the first place. -/
theorem idxOf_le_of_sublist {p q : Point} {points : List Point} (hnodup : points.Nodup)
    (h : [p, q].Sublist points) : points.idxOf p ≤ points.idxOf q := by
  induction points with
  | nil => exact absurd h (by simp)
  | cons a points ih =>
    obtain ⟨ha, hnodup⟩ := List.nodup_cons.1 hnodup
    cases h with
    | cons _ h =>
      have hp : a ≠ p := fun heq => ha (heq ▸ h.subset List.mem_cons_self)
      have hq : a ≠ q := fun heq => ha (heq ▸ h.subset (List.mem_cons_of_mem _ List.mem_cons_self))
      rw [List.idxOf_cons_ne _ hp, List.idxOf_cons_ne _ hq]
      exact Nat.succ_le_succ (ih hnodup h)
    | cons_cons _ h =>
      rw [List.idxOf_cons_self]
      exact Nat.zero_le _

/-! ## Orders of visits -/

/-- From `current`, `p` is nearer than `q`, or as near and not after it in the list. -/
def Preferred (m : Metric) (points : List Point) (current p q : Point) : Prop :=
  m.distance current p < m.distance current q ∨
    m.distance current p = m.distance current q ∧ points.idxOf p ≤ points.idxOf q

theorem Preferred.refl (m : Metric) (points : List Point) (current p : Point) :
    Preferred m points current p p :=
  .inr ⟨rfl, Nat.le_refl _⟩

theorem Preferred.antisymm {m : Metric} {points : List Point} {current p q : Point}
    (hp : p ∈ points) (h : Preferred m points current p q) (h' : Preferred m points current q p) :
    p = q := by
  refine (List.idxOf_inj hp).1 ?_
  unfold Preferred at h h'
  omega

/-- An order in which to visit the points of a list: each visit goes to the nearest point that is
left, the first in the list of those equally near. -/
structure VisitsNearest (m : Metric) (start : Point) (points order : List Point) : Prop where
  perm : order.Perm points
  nearest : ∀ front p back, order = front ++ p :: back → ∀ q ∈ points, q ∉ front →
    Preferred m points (front.getLastD start) p q

/-- What is left of a list is in the order of the list, so its first point at the least distance is
also the first of them in the list. -/
theorem preferred_extractLeast {m : Metric} {points : List Point} (hnodup : points.Nodup)
    {current p q : Point} {r : List Point} (hsub : (p :: r).Sublist points) (hq : q ∈ p :: r) :
    Preferred m points current (extractLeast (m.distance current) p r).1 q := by
  obtain ⟨before, after, hsplit, -, hbefore, hafter⟩ :=
    extractLeast_split (m.distance current) p r
  rw [hsplit] at hq hsub
  rcases List.mem_append.1 hq with hq | hq
  · exact .inl (hbefore q hq)
  · rcases List.mem_cons.1 hq with rfl | hq
    · exact Preferred.refl m points current _
    · refine (hafter q hq).lt_or_eq.imp_right fun heq => ⟨heq, idxOf_le_of_sublist hnodup ?_⟩
      exact (((List.singleton_sublist.2 hq).cons_cons _).trans
        (List.sublist_append_right _ _)).trans hsub

theorem extractLeast_sublist (cost : Point → Nat) (p : Point) (points : List Point) :
    (extractLeast cost p points).2.Sublist (p :: points) := by
  obtain ⟨before, after, hsplit, hrest, -, -⟩ := extractLeast_split cost p points
  rw [hsplit, hrest]
  exact (List.sublist_cons_self _ _).append_left before

/-- On the way through what is left of a list, which keeps the order of the list, each visit is
preferred to the later ones. -/
theorem preferred_visits {m : Metric} {points : List Point} (hnodup : points.Nodup)
    (current : Point) (left : List Point) (hsub : left.Sublist points) :
    ∀ front p back, visits m current left = front ++ p :: back → ∀ q ∈ left, q ∉ front →
      Preferred m points (front.getLastD current) p q := by
  fun_induction visits m current left with
  | case1 current => exact fun front p back h => absurd h (by simp)
  | case2 current first r found ih =>
    -- The visit at hand is the first one, or one of those from the point just found.
    rintro (_ | ⟨best, front⟩) p back h q hq hfront
    · obtain ⟨rfl, -⟩ := List.cons.inj h
      exact preferred_extractLeast hnodup hsub hq
    · obtain ⟨rfl, hlater⟩ := List.cons.inj h
      obtain ⟨hne, hfront⟩ := not_or.1 (mt List.mem_cons.2 hfront)
      have hleft : q ∈ found.2 :=
        (List.mem_cons.1 ((extractLeast_perm _ first r).mem_iff.2 hq)).resolve_left hne
      rw [List.getLastD_cons]
      exact ih ((extractLeast_sublist _ _ _).trans hsub) front p back hlater q hleft hfront

theorem visitsNearest_visits (m : Metric) (start : Point) {points : List Point}
    (hnodup : points.Nodup) : VisitsNearest m start points (visits m start points) where
  perm := visits_perm m start points
  nearest := preferred_visits hnodup start points (List.Sublist.refl _)

/-- The next visit goes to a point of the list that was not visited before. -/
theorem VisitsNearest.next_left {m : Metric} {start : Point} {points front back : List Point}
    {p : Point} (hnodup : points.Nodup)
    (h : VisitsNearest m start points (front ++ p :: back)) : p ∈ points ∧ p ∉ front := by
  have hdisjoint := (List.nodup_append.1 (h.perm.nodup_iff.2 hnodup)).2.2
  exact ⟨h.perm.subset (List.mem_append_right _ List.mem_cons_self),
    fun hfront => hdisjoint p hfront p List.mem_cons_self rfl⟩

/-- Two orders that have gone the same way so far go on the same way: each next visit is preferred
to the other. -/
theorem VisitsNearest.unique_from {m : Metric} {start : Point} {points : List Point}
    (hnodup : points.Nodup) (front back back' : List Point)
    (h : VisitsNearest m start points (front ++ back))
    (h' : VisitsNearest m start points (front ++ back')) : back = back' := by
  induction back generalizing front back' with
  | nil =>
    have hlength := (h'.perm.trans h.perm.symm).length_eq
    simpa using hlength
  | cons p back ih =>
    cases back' with
    | nil =>
      have hlength := (h'.perm.trans h.perm.symm).length_eq
      simp at hlength
    | cons p' back' =>
      obtain ⟨hp, hfresh⟩ := h.next_left hnodup
      obtain ⟨hp', hfresh'⟩ := h'.next_left hnodup
      obtain rfl : p = p' := Preferred.antisymm hp
        (h.nearest front p back rfl p' hp' hfresh') (h'.nearest front p' back' rfl p hp hfresh)
      rw [ih (front ++ [p]) back' (by simpa using h) (by simpa using h')]

theorem VisitsNearest.unique {m : Metric} {start : Point} {points order order' : List Point}
    (hnodup : points.Nodup) (h : VisitsNearest m start points order)
    (h' : VisitsNearest m start points order') : order = order' :=
  VisitsNearest.unique_from hnodup [] order order' h h'

/-- The nearest-neighbour tour goes from the start through the distinct other points to the end in
the one order in which each visit goes to the nearest point that is left, the first occurring one of
those equally near. Points that are given again, and the ends among the points, make no
difference. -/
theorem greedy_visits_nearest {m : Metric} (hm : m.Exact) (points : List Point)
    (start finish : Point) :
    (∃ order, greedy? m points start finish = .ok (start :: order ++ [finish]) ∧
      VisitsNearest m start (others points start finish) order ∧
      ∀ order', VisitsNearest m start (others points start finish) order' → order' = order) ∧
    ∀ front q back, points = front ++ back → q = start ∨ q = finish ∨ q ∈ front →
      greedy? m (front ++ q :: back) start finish = greedy? m points start finish := by
  constructor
  · have hnodup := nodup_others points start finish
    have hvisits := visitsNearest_visits m start hnodup
    refine ⟨visits m start (others points start finish), ?_, hvisits,
      fun order' h => h.unique hnodup hvisits⟩
    rw [greedy?_eq_ok hm.measurable, greedy, distinctPoints_eq]
  · rintro front q back rfl hq
    unfold greedy? greedy
    rw [distinctPoints_insert hq]

/-- A round trip on a torus of ten columns and rows: of three points at distance two from the start
the first given comes first, and giving it once more changes nothing. -/
theorem greedy_visits_nearest_round_trip :
    (⟨10, 10, by decide, by decide, true⟩ : Metric).Exact ∧
    (⟨1, 9⟩ : Point) ∈ ([⟨1, 9⟩, ⟨0, 0⟩, ⟨5, 5⟩] : List Point) ∧
    greedy? ⟨10, 10, by decide, by decide, true⟩
        ([⟨1, 9⟩, ⟨0, 0⟩, ⟨5, 5⟩] ++ ⟨1, 9⟩ :: [⟨9, 1⟩, ⟨1, 1⟩]) ⟨0, 0⟩ ⟨0, 0⟩ =
      .ok [⟨0, 0⟩, ⟨1, 9⟩, ⟨1, 1⟩, ⟨9, 1⟩, ⟨5, 5⟩, ⟨0, 0⟩] ∧
    VisitsNearest ⟨10, 10, by decide, by decide, true⟩ ⟨0, 0⟩ [⟨1, 9⟩, ⟨5, 5⟩, ⟨9, 1⟩, ⟨1, 1⟩]
      [⟨1, 9⟩, ⟨1, 1⟩, ⟨9, 1⟩, ⟨5, 5⟩] := by
  have hm : (⟨10, 10, by decide, by decide, true⟩ : Metric).Exact := by decide
  have hmem : (⟨1, 9⟩ : Point) ∈ ([⟨1, 9⟩, ⟨0, 0⟩, ⟨5, 5⟩] : List Point) := by decide
  obtain ⟨⟨order, htour, hvisits, -⟩, hinsert⟩ := greedy_visits_nearest hm
    [⟨1, 9⟩, ⟨0, 0⟩, ⟨5, 5⟩, ⟨9, 1⟩, ⟨1, 1⟩] ⟨0, 0⟩ ⟨0, 0⟩
  have hagain := hinsert [⟨1, 9⟩, ⟨0, 0⟩, ⟨5, 5⟩] ⟨1, 9⟩ [⟨9, 1⟩, ⟨1, 1⟩] rfl (.inr (.inr hmem))
  have hothers : others [⟨1, 9⟩, ⟨0, 0⟩, ⟨5, 5⟩, ⟨9, 1⟩, ⟨1, 1⟩] ⟨0, 0⟩ ⟨0, 0⟩ =
      [⟨1, 9⟩, ⟨5, 5⟩, ⟨9, 1⟩, ⟨1, 1⟩] := by decide +kernel
  have hpath : greedy ⟨10, 10, by decide, by decide, true⟩
      [⟨1, 9⟩, ⟨0, 0⟩, ⟨5, 5⟩, ⟨9, 1⟩, ⟨1, 1⟩] ⟨0, 0⟩ ⟨0, 0⟩ =
        [⟨0, 0⟩, ⟨1, 9⟩, ⟨1, 1⟩, ⟨9, 1⟩, ⟨5, 5⟩, ⟨0, 0⟩] := by decide +kernel
  have hgreedy := greedy?_eq_ok hm.measurable [⟨1, 9⟩, ⟨0, 0⟩, ⟨5, 5⟩, ⟨9, 1⟩, ⟨1, 1⟩] ⟨0, 0⟩ ⟨0, 0⟩
  rw [hpath] at hgreedy
  obtain rfl : [⟨1, 9⟩, ⟨1, 1⟩, ⟨9, 1⟩, ⟨5, 5⟩] = order :=
    List.append_cancel_right (List.cons.inj (Except.ok.inj (hgreedy.symm.trans htour))).2
  rw [hothers] at hvisits
  exact ⟨hm, hmem, hagain.trans hgreedy, hvisits⟩

end Turmite.Tour
