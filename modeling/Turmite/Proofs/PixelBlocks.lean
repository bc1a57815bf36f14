import Mathlib.Algebra.BigOperators.Ring.List
import Mathlib.Data.Finset.Lattice.Fold
import Turmite.Palette.Image
import Turmite.Proofs.FloatProduct

/-!
# Blocks of pixels

The blocks of a row of cells lie one behind the other from the first pixel on: their bounds never go
back, since rounding is monotone. So a pixel belongs to one block or to none, and those of none are
the ones behind the last bound. Up to `2 ^ 53` pixels and cells this is the last pixel at most, and
none if the cells share the pixels evenly; but it is the only pixel of one that is shared out among
49 cells.
-/

namespace Turmite

namespace Image

open Binary64

/-- The bits of the bound of block `k`, before it is cut to an integer. -/
def boundBits (pixels count k : Nat) : Nat :=
  nearestBits (units (held (nearestBits k 1)) * units (held (nearestBits pixels count)))
    (unitsOfOne * unitsOfOne)

theorem blockBound_eq (pixels count k : Nat) :
    blockBound pixels count k = units (held (boundBits pixels count k)) / unitsOfOne := by
  have hq : (quotient? pixels count).getD 0.0 = (ofRatio? false pixels count).getD 0.0 := by
    have hp : ¬(pixels : Int) < 0 := by omega
    have hc : ¬(count : Int) < 0 := by omega
    simp [quotient?, hp, hc]
  have hn : (ofInt? k).getD 0.0 = (ofRatio? false k 1).getD 0.0 := by
    have hk : ¬(k : Int) < 0 := by omega
    simp [ofInt?, hk]
  have hx := toNat_toBits_mul (toNat_toBits_ofRatio? k 1) (toNat_toBits_ofRatio? pixels count)
    (held_lt _) (held_lt _)
  rw [← boundBits] at hx
  simp only [blockBound, hq, hn]
  by_cases hb : boundBits pixels count k < infinityBits
  · obtain ⟨i, r, hbits, hr, hi, hu⟩ := exists_units (boundBits pixels count k)
    rw [Nat.min_eq_right hb.le, hbits] at hx
    rw [ofFloat_eq hr hi hx (by omega), held_of_lt hb, hu]
    simp only [truncate_eq, Int.toNat_natCast]
  · rw [Nat.min_eq_left (by omega)] at hx
    have hinf : ofFloat ((ofRatio? false k 1).getD 0.0 * (ofRatio? false pixels count).getD 0.0) =
        .infinite false := by
      simp only [ofFloat, hx]
      rfl
    have hzero : units 0 = 0 := rfl
    rw [hinf, held, if_neg hb, hzero, Nat.zero_div]

/-- The bound of block `k` is a finite value. -/
def HasBound (pixels count k : Nat) : Prop :=
  nearestBits k 1 < infinityBits ∧ boundBits pixels count k < infinityBits

theorem boundBits_le {pixels count k l : Nat} (h : k ≤ l) (hl : nearestBits l 1 < infinityBits) :
    boundBits pixels count k ≤ boundBits pixels count l := by
  have hk := nearestBits_natCast_mono h
  have hd : 0 < unitsOfOne * unitsOfOne := Nat.mul_pos unitsOfOne_pos unitsOfOne_pos
  unfold boundBits
  rw [held_of_lt hl, held_of_lt (by omega)]
  apply nearestBits_mono hd hd
  exact Nat.mul_le_mul_right _ (Nat.mul_le_mul_right _ (units_le_units hk))

theorem HasBound.of_le {pixels count k l : Nat} (hl : HasBound pixels count l) (h : k ≤ l) :
    HasBound pixels count k := by
  have hk := nearestBits_natCast_mono h
  exact ⟨Nat.lt_of_le_of_lt hk hl.1, Nat.lt_of_le_of_lt (boundBits_le h hl.1) hl.2⟩

/-- Bounds do not go back. -/
theorem HasBound.blockBound_le {pixels count k l : Nat} (hl : HasBound pixels count l)
    (h : k ≤ l) : blockBound pixels count k ≤ blockBound pixels count l := by
  rw [blockBound_eq, blockBound_eq, held_of_lt hl.2, held_of_lt (hl.of_le h).2]
  exact Nat.div_le_div_right (units_le_units (boundBits_le h hl.1))

theorem hasBound_of_pos {pixels count k : Nat} (h : 0 < blockBound pixels count k) :
    HasBound pixels count k := by
  rw [blockBound_eq] at h
  constructor
  · by_contra hn
    have hzero : held (nearestBits k 1) = 0 := if_neg hn
    simp [boundBits, hzero] at h
  · by_contra hn
    have hzero : held (boundBits pixels count k) = 0 := if_neg hn
    simp [hzero] at h

theorem blockBound_zero (pixels count : Nat) : blockBound pixels count 0 = 0 := by
  rw [blockBound_eq]
  simp [boundBits]

/-- How many pixels the first blocks reach over. -/
def frontier (pixels count n : Nat) : Nat :=
  (Finset.range (n + 1)).sup fun k => min (blockBound pixels count k) pixels

theorem frontier_zero (pixels count : Nat) : frontier pixels count 0 = 0 := by
  simp [frontier, blockBound_zero]

theorem frontier_succ (pixels count n : Nat) :
    frontier pixels count (n + 1) =
      max (min (blockBound pixels count (n + 1)) pixels) (frontier pixels count n) := by
  unfold frontier
  rw [Finset.range_add_one, Finset.sup_insert]

theorem HasBound.frontier_eq {pixels count n : Nat} (hn : HasBound pixels count n) :
    frontier pixels count n = min (blockBound pixels count n) pixels := by
  apply Nat.le_antisymm
  · apply Finset.sup_le
    intro k hk
    have hk : k < n + 1 := Finset.mem_range.1 hk
    have hle := hn.blockBound_le (show k ≤ n by omega)
    omega
  · exact Finset.le_sup (f := fun k => min (blockBound pixels count k) pixels)
      (Finset.mem_range.2 (Nat.lt_succ_self n))

theorem frontier_le (pixels count n : Nat) : frontier pixels count n ≤ pixels := by
  apply Finset.sup_le
  intro k hk
  exact Nat.min_le_right _ _

/-- The first blocks of a row of cells are its first pixels, each once and in order. -/
theorem flatMap_block (pixels count n : Nat) :
    (List.range n).flatMap (block pixels count) = List.range (frontier pixels count n) := by
  induction n with
  | zero => simp [frontier_zero]
  | succ n ih =>
    rw [List.range_succ, List.flatMap_append, ih, frontier_succ]
    simp only [List.flatMap_cons, List.flatMap_nil, List.append_nil, block]
    by_cases hb : 0 < blockBound pixels count (n + 1)
    · -- the blocks so far end where this one begins, or with the last pixel
      have hn := (hasBound_of_pos hb).of_le (Nat.le_succ n)
      have hstep := (hasBound_of_pos hb).blockBound_le (Nat.le_succ n)
      rw [hn.frontier_eq]
      generalize blockBound pixels count n = first at hstep
      generalize blockBound pixels count (n + 1) = next at hstep
      by_cases hp : first ≤ pixels
      · have hmax : max (min next pixels) (min first pixels) =
            first + (min next pixels - first) := by omega
        rw [hmax, Nat.min_eq_left hp, List.range_eq_range', List.range_eq_range',
          ← List.range'_append_1, Nat.zero_add]
      · have hempty : min next pixels - first = 0 := by omega
        have hmax : max (min next pixels) (min first pixels) = min first pixels := by omega
        rw [hempty, hmax]
        simp
    · have hzero : blockBound pixels count (n + 1) = 0 := by omega
      simp [hzero]

theorem nearestBits_lt_infinityBits {n : Nat} (hn : n ≤ 2 ^ 106) :
    nearestBits n 1 < infinityBits := by
  have h : nearestBits (2 ^ 106) 1 < infinityBits := by decide +kernel
  exact Nat.lt_of_le_of_lt (nearestBits_natCast_mono hn) h

/-- The width of a cell in pixels is a finite value. -/
theorem nearestBits_div_le (pixels : Nat) {count : Nat} (hc : 0 < count) :
    nearestBits pixels count ≤ nearestBits pixels 1 := by
  apply nearestBits_mono hc Nat.one_pos
  rw [Nat.mul_one]
  exact Nat.le_mul_of_pos_right pixels hc

section

variable {pixels count k : Nat} (hp : pixels ≤ 2 ^ 53) (hc : count ≤ 2 ^ 53) (hc₀ : 0 < count)
  (hk : k ≤ count)

include hp hc hc₀ hk

theorem boundBits_eq : boundBits pixels count k =
    nearestBits (k * unitsOfOne * units (nearestBits pixels count)) (unitsOfOne * unitsOfOne) := by
  have hq := nearestBits_div_le pixels hc₀
  have hp' := nearestBits_lt_infinityBits (show pixels ≤ 2 ^ 106 by omega)
  have hk' := nearestBits_lt_infinityBits (show k ≤ 2 ^ 106 by omega)
  unfold boundBits
  rw [held_of_lt hk', held_of_lt (by omega), units_nearestBits_natCast (by omega)]

/-- Up to `2 ^ 53` pixels and cells every bound is a finite value. -/
theorem hasBound : HasBound pixels count k := by
  have hk' := nearestBits_lt_infinityBits (show k ≤ 2 ^ 106 by omega)
  refine ⟨hk', ?_⟩
  rw [boundBits_eq hp hc hc₀ hk]
  have hd : 0 < unitsOfOne * unitsOfOne := Nat.mul_pos unitsOfOne_pos unitsOfOne_pos
  have hunits : units (nearestBits pixels count) ≤ 2 ^ 53 * unitsOfOne := by
    calc units (nearestBits pixels count) ≤ units (nearestBits pixels 1) :=
          units_le_units (nearestBits_div_le pixels hc₀)
      _ = pixels * unitsOfOne := units_nearestBits_natCast hp
      _ ≤ 2 ^ 53 * unitsOfOne := Nat.mul_le_mul_right _ hp
  refine Nat.lt_of_le_of_lt ?_ (nearestBits_lt_infinityBits (Nat.le_refl (2 ^ 106)))
  apply nearestBits_mono hd Nat.one_pos
  calc k * unitsOfOne * units (nearestBits pixels count) * 1
      ≤ 2 ^ 53 * unitsOfOne * (2 ^ 53 * unitsOfOne) * 1 := by gcongr; omega
    _ = 2 ^ 106 * (unitsOfOne * unitsOfOne) := by ring

end

/-- The last bound leaves out one pixel at most. -/
theorem le_blockBound_last {pixels count : Nat} (hp : pixels ≤ 2 ^ 53) (hc : count ≤ 2 ^ 53)
    (hc₀ : 0 < count) : pixels ≤ blockBound pixels count count + 1 := by
  by_cases hp₀ : pixels = 0
  · omega
  have hfin := hasBound hp hc hc₀ (Nat.le_refl count)
  rw [blockBound_eq, held_of_lt hfin.2, boundBits_eq hp hc hc₀ (Nat.le_refl count)]
  have hd : 0 < unitsOfOne * unitsOfOne := Nat.mul_pos unitsOfOne_pos unitsOfOne_pos
  have hnormal : count * 2 ^ 52 ≤ pixels * unitsOfOne := by
    have hU : 2 ^ 53 * 2 ^ 52 ≤ unitsOfOne := by
      rw [unitsOfOne, ← Nat.pow_add]
      exact Nat.pow_le_pow_right (by decide) (by decide)
    calc count * 2 ^ 52 ≤ 2 ^ 53 * 2 ^ 52 := Nat.mul_le_mul_right _ hc
      _ ≤ 1 * unitsOfOne := by omega
      _ ≤ pixels * unitsOfOne := Nat.mul_le_mul_right _ (by omega)
  have hclose := units_nearestBits_ge hc₀ hnormal
  generalize hw : units (nearestBits pixels count) = w at hclose
  -- the last pixel but one is a value that is not above the product
  have hlow : (pixels - 1) * unitsOfOne ≤ count * w := by
    have hcomm : w * count = count * w := Nat.mul_comm _ _
    have hsub : (pixels - 1) * unitsOfOne = pixels * unitsOfOne - unitsOfOne := Nat.sub_one_mul _ _
    have hle : pixels * unitsOfOne ≤ 2 ^ 53 * unitsOfOne := Nat.mul_le_mul_right _ hp
    rw [hcomm] at hclose
    omega
  have hbits : nearestBits (pixels - 1) 1 ≤
      nearestBits (count * unitsOfOne * w) (unitsOfOne * unitsOfOne) := by
    apply nearestBits_mono Nat.one_pos hd
    calc (pixels - 1) * (unitsOfOne * unitsOfOne)
        = (pixels - 1) * unitsOfOne * unitsOfOne := by ring
      _ ≤ count * w * unitsOfOne := Nat.mul_le_mul_right _ hlow
      _ = count * unitsOfOne * w * 1 := by ring
  have hunits := units_le_units hbits
  rw [units_nearestBits_natCast (by omega)] at hunits
  have hdiv := (Nat.le_div_iff_mul_le unitsOfOne_pos).2 hunits
  omega

/-- Cells that share the pixels evenly have bounds that are no pixel off. -/
theorem blockBound_of_dvd {count share k : Nat} (hp : count * share ≤ 2 ^ 53) (hc : count ≤ 2 ^ 53)
    (hc₀ : 0 < count) (hk : k ≤ count) : blockBound (count * share) count k = k * share := by
  have hfin := hasBound hp hc hc₀ hk
  have hs : share ≤ count * share := Nat.le_mul_of_pos_left share hc₀
  have hks : k * share ≤ count * share := Nat.mul_le_mul_right _ hk
  have hd : 0 < unitsOfOne * unitsOfOne := Nat.mul_pos unitsOfOne_pos unitsOfOne_pos
  have hquot : nearestBits (count * share) count = nearestBits share 1 :=
    nearestBits_congr hc₀ Nat.one_pos (by ring)
  have hprod : nearestBits (k * unitsOfOne * (share * unitsOfOne)) (unitsOfOne * unitsOfOne) =
      nearestBits (k * share) 1 := nearestBits_congr hd Nat.one_pos (by ring)
  rw [blockBound_eq, held_of_lt hfin.2, boundBits_eq hp hc hc₀ hk, hquot,
    units_nearestBits_natCast (by omega), hprod, units_nearestBits_natCast (by omega),
    Nat.mul_div_cancel _ unitsOfOne_pos]

/-- How many pixels all the blocks reach over. -/
def reach (pixels count : Nat) : Nat := frontier pixels count count

/-- Up to `2 ^ 53` pixels and cells the blocks end at the last bound, which is that of the last
pixel or of the one before it. -/
theorem reach_spec {pixels count : Nat} (hp : pixels ≤ 2 ^ 53) (hc : count ≤ 2 ^ 53)
    (hc₀ : 0 < count) :
    reach pixels count = min (blockBound pixels count count) pixels ∧
      pixels ≤ reach pixels count + 1 ∧ (count ∣ pixels → reach pixels count = pixels) := by
  have hreach : reach pixels count = min (blockBound pixels count count) pixels :=
    (hasBound hp hc hc₀ (Nat.le_refl count)).frontier_eq
  have hlast := le_blockBound_last hp hc hc₀
  refine ⟨hreach, ?_, ?_⟩
  · omega
  · rintro ⟨share, rfl⟩
    rw [hreach, blockBound_of_dvd hp hc hc₀ (Nat.le_refl count), Nat.min_self]

/-- The pixels whose colors a cell takes the mean of, row by row. -/
def cellPixels (config : GridConfig) (width height : Nat) (cell : Point) : List (Nat × Nat) :=
  (block height config.rows cell.y.toNat).flatMap fun y =>
    (block width config.cols cell.x.toNat).map fun x => (x, y)

/-- The color of a cell is the one nearest to the mean of the colors of its pixels, or background
if it has none. -/
theorem cellColor?_eq (config : GridConfig) (p : Picture) (palette : Except Error (List Channels))
    (cell : Point) :
    p.cellColor? palette config.cols config.rows cell =
      let pixels := cellPixels config p.width p.height cell
      let even := isEven p.width (block p.width config.cols cell.x.toNat).length
        (block p.height config.rows cell.y.toNat).length
      let average := mean (if even then Summation.pairwise else Summation.sequential)
        (pixels.map fun q => p.pixel q.1 q.2)
      if pixels.isEmpty then .ok background
      else palette >>= fun colors => (fun (k : Nat) => (k : Int)) <$>
        Palette.nearest? colors average := by
  have hcolors : ((block p.height config.rows cell.y.toNat).flatMap fun y =>
      (block p.width config.cols cell.x.toNat).map fun x => p.pixel x y) =
      (cellPixels config p.width p.height cell).map fun q => p.pixel q.1 q.2 := by
    simp only [cellPixels, List.map_flatMap, List.map_map, Function.comp_def]
  simp only [Picture.cellColor?, hcolors, List.isEmpty_map]
  rfl

theorem count_pairs (xs ys : List Nat) (x y : Nat) :
    (ys.flatMap fun y' => xs.map fun x' => (x', y')).count (x, y) = ys.count y * xs.count x := by
  induction ys with
  | nil => simp
  | cons z ys ih =>
    rw [List.flatMap_cons, List.count_append, ih, List.count_cons]
    by_cases hz : z = y
    · subst hz
      have hrow : (xs.map fun x' => (x', z)).count (x, z) = xs.count x :=
        List.count_map_of_injective xs (fun x' => (x', z)) (fun _ _ h => congrArg Prod.fst h) x
      simp only [hrow, beq_self_eq_true, if_true]
      ring
    · have hrow : (xs.map fun x' => (x', z)).count (x, y) = 0 := by
        apply List.count_eq_zero_of_not_mem
        intro h
        obtain ⟨x', -, hx'⟩ := List.mem_map.1 h
        exact hz (congrArg Prod.snd hx')
      rw [hrow, if_neg (by simpa using hz)]
      ring

/-- How often a pixel counts: once if it is in a block of its row and in one of its column. -/
theorem count_flatMap_cellPixels (config : GridConfig) (width height x y : Nat) :
    (config.points.flatMap (cellPixels config width height)).count (x, y) =
      (List.range (reach height config.rows)).count y *
        (List.range (reach width config.cols)).count x := by
  unfold reach
  rw [← flatMap_block, ← flatMap_block, List.count_flatMap, List.count_flatMap]
  unfold GridConfig.points
  rw [← List.count_flatMap, List.flatMap_assoc, List.count_flatMap]
  have hpixels (gx gy : Nat) : (cellPixels config width height ⟨gx, gy⟩).count (x, y) =
      (block height config.rows gy).count y * (block width config.cols gx).count x :=
    count_pairs _ _ _ _
  have hcolumn (gx : Nat) :
      (((List.range config.rows).map fun gy : Nat => (⟨gx, gy⟩ : Point)).flatMap
        (cellPixels config width height)).count (x, y) =
      ((List.range config.rows).map fun gy => (block height config.rows gy).count y).sum *
        (block width config.cols gx).count x := by
    rw [List.flatMap_map, List.count_flatMap, ← List.sum_map_mul_right]
    simp only [Function.comp_def, hpixels]
  simp only [Function.comp_def, hcolumn]
  rw [List.sum_map_mul_left, List.count_flatMap]
  rfl

/-- No pixel counts twice, and the ones that count are those the blocks of both axes reach over. Up
to `2 ^ 53` pixels and cells an axis this is every pixel but, at most, the last ones of the rows and
of the columns; and none of these is left out where the cells share the pixels evenly. -/
theorem pixels_counted (config : GridConfig) (width height : Nat) :
    (∀ x y, (config.points.flatMap (cellPixels config width height)).count (x, y) =
      if x < reach width config.cols ∧ y < reach height config.rows then 1 else 0) ∧
    (∀ pixels count, reach pixels count ≤ pixels) ∧
    ∀ pixels count, 0 < count → pixels ≤ 2 ^ 53 → count ≤ 2 ^ 53 →
      reach pixels count = min (blockBound pixels count count) pixels ∧
        pixels ≤ reach pixels count + 1 ∧ (count ∣ pixels → reach pixels count = pixels) := by
  refine ⟨?_, ?_, ?_⟩
  · intro x y
    rw [count_flatMap_cellPixels, List.count_range, List.count_range]
    split_ifs <;> omega
  · intro pixels count
    exact frontier_le pixels count count
  · intro pixels count hc₀ hp hc
    exact reach_spec hp hc hc₀

/-- A board of two by three cells. -/
def sixfold : GridConfig := ⟨⟨2, 3, Nat.two_pos, Nat.lt_add_one_of_lt Nat.two_pos, false⟩, false⟩

/-- Six cells share 24 pixels. -/
theorem pixels_counted_sixfold : ∀ x < 4, ∀ y < 6,
    (sixfold.points.flatMap (cellPixels sixfold 4 6)).count (x, y) = 1 := by
  obtain ⟨hcount, -, hreach⟩ := pixels_counted sixfold 4 6
  have hcols : reach 4 sixfold.cols = 4 :=
    (hreach 4 2 (by decide) (by decide) (by decide)).2.2 (by decide)
  have hrows : reach 6 sixfold.rows = 6 :=
    (hreach 6 3 (by decide) (by decide) (by decide)).2.2 (by decide)
  intro x hx y hy
  rw [hcount, hcols, hrows, if_pos ⟨hx, hy⟩]

/-- A row of 49 cells. -/
def ribbon : GridConfig := ⟨⟨49, 1, by decide, by decide, false⟩, false⟩

/-- A single pixel counts for none of 49 cells, since 49 times the binary64 value nearest to one
49th is less than one: whatever its color, every cell is background. -/
theorem pixel_left_out :
    (ribbon.points.flatMap (cellPixels ribbon 1 1)).count (0, 0) = 0 ∧
      ∀ samples layout palette, ∀ cell ∈ ribbon.points,
        (⟨samples, 1, 1, layout⟩ : Picture).cellColor? palette 49 1 cell = .ok background := by
  have hempty : ∀ cell ∈ ribbon.points, cellPixels ribbon 1 1 cell = [] := by decide +kernel
  constructor
  · apply List.count_eq_zero_of_not_mem
    intro h
    obtain ⟨cell, hcell, hmem⟩ := List.mem_flatMap.1 h
    rw [hempty cell hcell] at hmem
    cases hmem
  · intro samples layout palette cell hcell
    have h := cellColor?_eq ribbon ⟨samples, 1, 1, layout⟩ palette cell
    rw [hempty cell hcell] at h
    exact h

end Image
end Turmite
