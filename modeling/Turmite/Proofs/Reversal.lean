import Turmite.Proofs.Distance
import Turmite.Proofs.Success
import Turmite.Tour.TwoOpt

/-!
# Reversals of inner segments

A reversal between two inner indices keeps the points of a tour and its ends
(`rearranges_reverseSegment`) and changes its length by the two edges that it exchanges
(`pathLength_reverseSegment`). So the exchange of the edges tells whether it shortens the tour
(`exchangeShortens_eq`).
-/

namespace Turmite.Tour

/-! ## Pairs of inner indices -/

/-- The pairs of indices that bound an inner segment of at least two points. -/
def Inner (size i k : Nat) : Prop := 1 ≤ i ∧ i < k ∧ k + 2 ≤ size

theorem mem_innerPairs {size i k : Nat} : (i, k) ∈ innerPairs size ↔ Inner size i k := by
  unfold innerPairs Inner
  simp only [List.mem_flatMap, List.mem_map, List.mem_range'_1, Prod.mk.injEq]
  constructor
  · rintro ⟨i', hi, k', hk, rfl, rfl⟩
    omega
  · intro h
    exact ⟨i, by omega, k, by omega, rfl, rfl⟩

section Find

variable {accept accept' : Nat → Nat → Except Error Bool} {pairs : List (Nat × Nat)}

theorem findPair?_cons_eq_ok {i k : Nat} {found : Option (Nat × Nat)} :
    findPair? accept ((i, k) :: pairs) = .ok found ↔
      (accept i k = .ok true ∧ found = some (i, k)) ∨
        (accept i k = .ok false ∧ findPair? accept pairs = .ok found) := by
  rw [findPair?, bind_eq_ok]
  constructor
  · rintro ⟨b, hb, h⟩
    cases b with
    | true => exact Or.inl ⟨hb, (pure_eq_ok.1 h).symm⟩
    | false => exact Or.inr ⟨hb, h⟩
  · rintro (⟨hb, rfl⟩ | ⟨hb, h⟩)
    · exact ⟨true, hb, rfl⟩
    · exact ⟨false, hb, h⟩

theorem findPair?_eq_some {i k : Nat} (h : findPair? accept pairs = .ok (some (i, k))) :
    (i, k) ∈ pairs ∧ accept i k = .ok true := by
  induction pairs with
  | nil => cases h
  | cons pair pairs ih =>
    rcases findPair?_cons_eq_ok.1 h with ⟨haccept, heq⟩ | ⟨-, h⟩
    · cases heq
      exact ⟨List.mem_cons_self, haccept⟩
    · exact ⟨List.mem_cons_of_mem pair (ih h).1, (ih h).2⟩

theorem findPair?_eq_none (h : findPair? accept pairs = .ok none) {i k : Nat}
    (hik : (i, k) ∈ pairs) : accept i k = .ok false := by
  induction pairs with
  | nil => cases hik
  | cons pair pairs ih =>
    rcases findPair?_cons_eq_ok.1 h with ⟨-, heq⟩ | ⟨haccept, h⟩
    · cases heq
    · rcases List.mem_cons.1 hik with rfl | hik
      · exact haccept
      · exact ih h hik

theorem findPair?_eq_error {e : Error} (h : findPair? accept pairs = .error e) :
    ∃ i k, (i, k) ∈ pairs ∧ accept i k = .error e := by
  induction pairs with
  | nil => cases h
  | cons pair pairs ih =>
    obtain ⟨i, k⟩ := pair
    rw [findPair?] at h
    cases haccept : accept i k with
    | error e' =>
      rw [haccept] at h
      cases h
      exact ⟨i, k, List.mem_cons_self, haccept⟩
    | ok b =>
      rw [haccept] at h
      cases b with
      | true => cases h
      | false =>
        obtain ⟨i', k', hmem, he⟩ := ih h
        exact ⟨i', k', List.mem_cons_of_mem _ hmem, he⟩

/-- A condition that tells as much of each pair finds the same. -/
theorem findPair?_eq_ok_of_imp {found : Option (Nat × Nat)}
    (h : ∀ i k b, (i, k) ∈ pairs → accept i k = .ok b → accept' i k = .ok b)
    (hfound : findPair? accept pairs = .ok found) : findPair? accept' pairs = .ok found := by
  induction pairs with
  | nil => exact hfound
  | cons pair pairs ih =>
    have hrest := ih fun i k b hik => h i k b (List.mem_cons_of_mem pair hik)
    rcases findPair?_cons_eq_ok.1 hfound with ⟨haccept, rfl⟩ | ⟨haccept, hfound⟩
    · exact findPair?_cons_eq_ok.2 (Or.inl ⟨h _ _ _ List.mem_cons_self haccept, rfl⟩)
    · exact findPair?_cons_eq_ok.2 (Or.inr ⟨h _ _ _ List.mem_cons_self haccept, hrest hfound⟩)

end Find

/-! ## Tours around a segment -/

theorem toList_reverseSegment {α : Type} (tour : Array α) (i k : Nat) :
    (reverseSegment tour i k).toList =
      tour.toList.take i ++ ((tour.toList.drop i).take (k + 1 - i)).reverse ++
        tour.toList.drop (k + 1) := by
  unfold reverseSegment
  simp only [Array.toList_append, Array.toList_extract, Array.toList_reverse,
    List.extract_eq_take_drop, List.drop_zero, Nat.sub_zero]
  congr 1
  rw [List.take_of_length_le]
  simp

/-- A tour is cut at an inner pair: some points, the one before the segment, the segment, the one
after it, and more points. -/
theorem exists_cut {α : Type} {tour : Array α} {i k : Nat} (h : Inner tour.size i k) :
    ∃ (front : List α) (a : α) (segment : List α) (d : α) (back : List α),
      tour = (front ++ a :: (segment ++ d :: back)).toArray ∧ segment ≠ [] ∧
        i = front.length + 1 ∧ k = front.length + segment.length := by
  obtain ⟨hi, hik, hk⟩ := h
  rw [← Array.length_toList] at hk
  generalize hl : tour.toList = l at hk
  have htour : tour = l.toArray := by rw [← hl, Array.toArray_toList]
  refine ⟨l.take (i - 1), l[i - 1], (l.drop i).take (k + 1 - i), l[k + 1], l.drop (k + 2), ?_, ?_,
    ?_, ?_⟩
  · have hback : l[k + 1] :: l.drop (k + 2) = (l.drop i).drop (k + 1 - i) := by
      rw [List.drop_drop, show i + (k + 1 - i) = k + 1 by omega,
        List.drop_eq_getElem_cons (by omega : k + 1 < l.length)]
    have hfront : l[i - 1] :: l.drop i = l.drop (i - 1) := by
      rw [List.drop_eq_getElem_cons (by omega : i - 1 < l.length), show i - 1 + 1 = i by omega]
    rw [htour, hback, List.take_append_drop, hfront, List.take_append_drop]
  · intro hnil
    have := congrArg List.length hnil
    rw [List.length_take, List.length_drop, List.length_nil] at this
    omega
  · rw [List.length_take]
    omega
  · rw [List.length_take, List.length_take, List.length_drop]
    omega

section Cut

variable {α : Type} (front : List α) (a : α) (segment : List α) (d : α) (back : List α)

theorem reverseSegment_cut :
    reverseSegment (front ++ a :: (segment ++ d :: back)).toArray (front.length + 1)
        (front.length + segment.length) =
      (front ++ a :: (segment.reverse ++ d :: back)).toArray := by
  have hsplit : front ++ a :: (segment ++ d :: back) = (front ++ [a]) ++ (segment ++ d :: back) := by
    simp
  have hlen : (front ++ [a]).length = front.length + 1 := by simp
  apply Array.ext'
  rw [toList_reverseSegment, hsplit, ← hlen, List.take_left, List.drop_left,
    show front.length + segment.length + 1 - (front ++ [a]).length = segment.length by
      rw [hlen]; omega,
    List.take_left,
    show front.length + segment.length + 1 = (front ++ [a] ++ segment).length by simp; omega,
    ← List.append_assoc, List.drop_left]
  simp

variable [Inhabited α]

theorem getD_before_cut :
    (front ++ a :: (segment ++ d :: back)).toArray.getD front.length default = a := by
  simp

theorem getD_head_cut (h : segment ≠ []) :
    (front ++ a :: (segment ++ d :: back)).toArray.getD (front.length + 1) default =
      segment.head h := by
  obtain ⟨b, rest, rfl⟩ := List.exists_cons_of_ne_nil h
  simp

theorem getD_getLast_cut (h : segment ≠ []) :
    (front ++ a :: (segment ++ d :: back)).toArray.getD (front.length + segment.length) default =
      segment.getLast h := by
  have hpos := List.length_pos_iff.2 h
  rw [Array.getD_eq_getD_getElem?, List.getElem?_toArray, List.getElem?_append_right (by omega),
    show front.length + segment.length - front.length = (segment.length - 1) + 1 by omega,
    List.getElem?_cons_succ, List.getElem?_append_left (by omega), List.getLast_eq_getElem,
    List.getElem?_eq_getElem (by omega), Option.getD_some]

theorem getD_after_cut :
    (front ++ a :: (segment ++ d :: back)).toArray.getD (front.length + segment.length + 1)
      default = d := by
  rw [Array.getD_eq_getD_getElem?, List.getElem?_toArray, List.getElem?_append_right (by omega),
    show front.length + segment.length + 1 - front.length = segment.length + 1 by omega,
    List.getElem?_cons_succ]
  simp

end Cut

/-! ## What a reversal keeps -/

/-- Both tours lead through the same points, as often through each, between the same ends. -/
structure Rearranges (s t : List Point) : Prop where
  perm : s.Perm t
  head_eq : s.head? = t.head?
  last_eq : s.getLast? = t.getLast?

theorem Rearranges.refl (t : List Point) : Rearranges t t := ⟨List.Perm.refl t, rfl, rfl⟩

theorem Rearranges.trans {s t u : List Point} (h : Rearranges s t) (h' : Rearranges t u) :
    Rearranges s u :=
  ⟨h.perm.trans h'.perm, h.head_eq.trans h'.head_eq, h.last_eq.trans h'.last_eq⟩

theorem Rearranges.length_eq {s t : List Point} (h : Rearranges s t) : s.length = t.length :=
  h.perm.length_eq

theorem rearranges_reverseSegment {tour : Array Point} {i k : Nat} (h : Inner tour.size i k) :
    Rearranges (reverseSegment tour i k).toList tour.toList := by
  obtain ⟨front, a, segment, d, back, rfl, -, rfl, rfl⟩ := exists_cut h
  rw [reverseSegment_cut]
  refine ⟨?_, ?_, ?_⟩
  · exact List.Perm.append_left _ (((List.reverse_perm segment).append_right _).cons a)
  · cases front <;> rfl
  · simp [List.getLast?_cons]

/-! ## What a reversal saves -/

/-- Whether a reversal makes the tour shorter. -/
def shortens (m : Metric) (tour : Array Point) (i k : Nat) : Bool :=
  m.pathLength (reverseSegment tour i k).toList < m.pathLength tour.toList

section Length

variable {m : Metric} (hm : m.Exact) {tour : Array Point} {i k : Nat} (h : Inner tour.size i k)

include hm h

/-- A reversal exchanges the edges at both ends of its segment; inside, the way back is as long. -/
theorem pathLength_reverseSegment :
    m.pathLength (reverseSegment tour i k).toList +
        (m.distance (tour.getD (i - 1) default) (tour.getD i default) +
          m.distance (tour.getD k default) (tour.getD (k + 1) default)) =
      m.pathLength tour.toList +
        (m.distance (tour.getD (i - 1) default) (tour.getD k default) +
          m.distance (tour.getD i default) (tour.getD (k + 1) default)) := by
  obtain ⟨front, a, segment, d, back, rfl, hne, rfl, rfl⟩ := exists_cut h
  have hne' : segment.reverse ≠ [] := List.reverse_ne_nil_iff.2 hne
  rw [reverseSegment_cut, Nat.add_sub_cancel, getD_before_cut, getD_head_cut _ _ _ _ _ hne,
    getD_getLast_cut _ _ _ _ _ hne, getD_after_cut, Metric.pathLength_around a d front back hne,
    Metric.pathLength_around a d front back hne', List.head_reverse, List.getLast_reverse,
    Metric.pathLength_reverse hm]
  omega

theorem exchangeShortens_eq : exchangeShortens m tour i k = shortens m tour i k := by
  have := pathLength_reverseSegment hm h
  unfold exchangeShortens shortens
  rw [decide_eq_decide]
  omega

end Length

end Turmite.Tour
