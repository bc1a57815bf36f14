import Turmite.Proofs.GridInvariant

/-!
# Filled rectangles

Filling gives one color to the cells between two corners, whichever way the corners lie, and to no
other cell (`Canvas.get_fillBetween`). The corners are cells of the grid before they are put in
order, so the rectangle is never cut by a seam. It comes to the same as painting its cells one by
one, in any order (`Grid.fill_paints_rectangle`).
-/

namespace Turmite

/-- The point lies in the inclusive rectangle of two corners, whichever way they lie. -/
def Point.Between (a b p : Point) : Prop :=
  (min a.x b.x ≤ p.x ∧ p.x ≤ max a.x b.x) ∧ min a.y b.y ≤ p.y ∧ p.y ≤ max a.y b.y

instance (a b p : Point) : Decidable (a.Between b p) := by
  unfold Point.Between
  infer_instance

/-- Corners that share their coordinates have one rectangle. -/
theorem Point.between_mix {a b p : Point} : Between ⟨b.x, a.y⟩ ⟨a.x, b.y⟩ p ↔ a.Between b p := by
  unfold Between
  rw [min_comm b.x, max_comm b.x]

theorem Point.between_comm {a b p : Point} : b.Between a p ↔ a.Between b p := by
  unfold Between
  rw [min_comm b.x, max_comm b.x, min_comm b.y, max_comm b.y]

namespace Metric

variable {m : Metric}

/-- Each axis is normalized by itself. -/
theorem normalize_mix (m : Metric) (x₁ y₁ x₂ y₂ : Int) :
    m.normalize ⟨x₂, y₁⟩ = ⟨(m.normalize ⟨x₂, y₂⟩).x, (m.normalize ⟨x₁, y₁⟩).y⟩ := by
  unfold normalize
  split_ifs <;> rfl

/-- The cells between two cells of a board are cells of it. -/
theorem contains_of_between {a b p : Point} (ha : m.Contains a)
    (hb : m.Contains b) (h : a.Between b p) : m.Contains p := by
  obtain ⟨⟨ha1, ha2⟩, ha3, ha4⟩ := ha
  obtain ⟨⟨hb1, hb2⟩, hb3, hb4⟩ := hb
  obtain ⟨⟨hx, hx'⟩, hy, hy'⟩ := h
  exact ⟨⟨by omega, by omega⟩, by omega, by omega⟩

end Metric

/-! ## The cells of a rectangle -/

/-- The cells between two corners, column by column. -/
def rectangle (a b : Point) : List Point :=
  (List.range (max a.x b.x - min a.x b.x + 1).toNat).flatMap fun (dx : Nat) =>
    (List.range (max a.y b.y - min a.y b.y + 1).toNat).map fun (dy : Nat) =>
      (⟨min a.x b.x, min a.y b.y⟩ : Point).shift dx dy

/-- A whole number of steps from the low end on leads to what lies up to the high end. -/
theorem exists_step_iff {low high n : Int} :
    (∃ k : Nat, k < (high - low + 1).toNat ∧ low + k = n) ↔ low ≤ n ∧ n ≤ high := by
  constructor
  · rintro ⟨k, hk, rfl⟩
    omega
  · rintro ⟨hlow, hhigh⟩
    exact ⟨(n - low).toNat, by omega, by omega⟩

theorem mem_rectangle {a b p : Point} : p ∈ rectangle a b ↔ a.Between b p := by
  unfold rectangle Point.Between
  rw [← exists_step_iff, ← exists_step_iff]
  simp only [List.mem_flatMap, List.mem_range, List.mem_map, Point.shift]
  constructor
  · rintro ⟨dx, hdx, dy, hdy, rfl⟩
    exact ⟨⟨dx, hdx, rfl⟩, dy, hdy, rfl⟩
  · rintro ⟨⟨dx, hdx, hx⟩, dy, hdy, hy⟩
    exact ⟨dx, hdx, dy, hdy, by rw [hx, hy]⟩

namespace Canvas

variable [Memory] {config : GridConfig} {a b : Point} {color : Int}

/-- To fill a rectangle is to recolor its cells column by column. -/
theorem fillBetween_eq_repaint (c : Canvas config) (a b : Point) (color : Int) :
    c.fillBetween a b color = c.repaint (fun _ => color) (rectangle a b) := by
  unfold fillBetween repaint rectangle
  rw [List.foldl_flatMap]
  simp only [List.foldl_map]

/-- The cells between two cells get the color, the others keep theirs. -/
theorem get_fillBetween (hw : fitsWord color) (c : Canvas config) (ha : config.Contains a)
    (hb : config.Contains b) {p : Point} (hp : config.Contains p) :
    (c.fillBetween a b color).get p = if a.Between b p then color else c.get p := by
  have hcells : ∀ q ∈ rectangle a b, config.Contains q := fun q hq =>
    Metric.contains_of_between ha hb (mem_rectangle.1 hq)
  rw [fillBetween_eq_repaint, get_repaint (fun _ _ => hw) c hcells hp]
  simp only [mem_rectangle]

/-- Recoloring the cells of a rectangle, in any order, is to fill it. -/
theorem repaint_eq_fillBetween (hw : fitsWord color) (c : Canvas config) (ha : config.Contains a)
    (hb : config.Contains b) {cells : List Point} (h : ∀ p, p ∈ cells ↔ a.Between b p) :
    c.repaint (fun _ => color) cells = c.fillBetween a b color := by
  refine eq_of_get_eq fun p hp => ?_
  have hcells : ∀ q ∈ cells, config.Contains q := fun q hq =>
    Metric.contains_of_between ha hb ((h q).1 hq)
  rw [get_fillBetween hw c ha hb hp, get_repaint (fun _ _ => hw) c hcells hp]
  simp only [h]

/-- Corners with the same rectangle are filled alike. -/
theorem fillBetween_congr (hw : fitsWord color) (c : Canvas config) {a' b' : Point}
    (ha : config.Contains a) (hb : config.Contains b) (h : ∀ p, a'.Between b' p ↔ a.Between b p) :
    c.fillBetween a' b' color = c.fillBetween a b color := by
  rw [fillBetween_eq_repaint c a']
  exact repaint_eq_fillBetween hw c ha hb fun p => mem_rectangle.trans (h p)

end Canvas

/-! ## Filling and painting -/

namespace Grid

/-- The colors from zero up to the largest word. -/
theorem color_lt_iff {color : Int} :
    0 ≤ color ∧ color < 2 ^ 63 ↔ 0 ≤ color ∧ fitsWord color = true := by
  rw [fitsWord_iff]
  omega

theorem ensureColor_of_nonneg {color : Int} (h0 : 0 ≤ color) : ensureColor color = .ok () :=
  ensureColor_eq_ok.2 h0

section

variable [Memory] {config : GridConfig} {color : Int}

/-- Colors the cells that points stand for, one after the other. -/
def paintAll (color : Int) : List Point → Procedure (Grid config) Unit
  | [] => pure ()
  | p :: r => do
    let _ ← paint p color
    paintAll color r

theorem runOn_fill (c : Canvas config) (p q : Point) (h0 : 0 ≤ color) (hw : fitsWord color) :
    (fill p q color).runOn ⟨some c⟩ =
      (.ok (), ⟨some (c.fillBetween (config.normalize p) (config.normalize q) color)⟩) := by
  unfold fill
  rw [ensureColor_of_nonneg h0, hw]
  rfl

/-- A color that is negative, or too large for a cell, is refused before any cell is written. -/
theorem runOn_fill_of_refused (c : Canvas config) (p q : Point)
    (h : ¬(0 ≤ color ∧ color < 2 ^ 63)) :
    (fill p q color).runOn ⟨some c⟩ =
      (.error (if color < 0 then InvalidArgument.negativeColor else .overflow), ⟨some c⟩) := by
  unfold fill ensureColor ensure
  by_cases h0 : 0 ≤ color
  · have hw : fitsWord color = false := by
      rw [← Bool.not_eq_true]
      exact fun hw => h (color_lt_iff.2 ⟨h0, hw⟩)
    rw [decide_eq_true h0, hw, if_neg (Int.not_lt.2 h0)]
    rfl
  · rw [decide_eq_false h0, if_pos (Int.not_le.1 h0)]
    rfl

theorem runOn_paintAll (c : Canvas config) (h0 : 0 ≤ color) (hw : fitsWord color)
    (points : List Point) :
    (paintAll color points).runOn ⟨some c⟩ =
      (.ok (), ⟨some (c.repaint (fun _ => color) (points.map config.normalize))⟩) := by
  induction points generalizing c with
  | nil => rfl
  | cons p r ih =>
    have hpaint : (paint p color).runOn ⟨some c⟩ =
        (.ok color, ⟨some (c.set (config.normalize p) color)⟩) := by
      unfold paint
      rw [ensureColor_of_nonneg h0, hw]
      rfl
    unfold paintAll
    rw [Procedure.runOn_bind_of_eq_ok hpaint, ih]
    rfl

/-- What filling does on a grid with cells, for any corners. A color from zero up to the largest
word goes to the cells between the cells that the corners stand for, and to no other, however the
coordinates of the corners are paired; painting the cells of this rectangle one by one, in any
order, comes to the same. Any other color is refused and no cell is changed. -/
theorem fill_paints_rectangle (c : Canvas config) (x₁ y₁ x₂ y₂ color : Int) :
    let a := config.normalize ⟨x₁, y₁⟩
    let b := config.normalize ⟨x₂, y₂⟩
    (0 ≤ color ∧ color < 2 ^ 63 → ∃ d : Canvas config,
      (∀ p, config.Contains p → d.get p = if a.Between b p then color else c.get p) ∧
      (fill ⟨x₁, y₁⟩ ⟨x₂, y₂⟩ color).runOn ⟨some c⟩ = (.ok (), ⟨some d⟩) ∧
      (fill ⟨x₂, y₁⟩ ⟨x₁, y₂⟩ color).runOn ⟨some c⟩ = (.ok (), ⟨some d⟩) ∧
      (fill ⟨x₁, y₂⟩ ⟨x₂, y₁⟩ color).runOn ⟨some c⟩ = (.ok (), ⟨some d⟩) ∧
      (fill ⟨x₂, y₂⟩ ⟨x₁, y₁⟩ color).runOn ⟨some c⟩ = (.ok (), ⟨some d⟩) ∧
      ∀ points : List Point, (∀ p, p ∈ points.map config.normalize ↔ a.Between b p) →
        (paintAll color points).runOn ⟨some c⟩ = (.ok (), ⟨some d⟩)) ∧
    (¬(0 ≤ color ∧ color < 2 ^ 63) → (fill ⟨x₁, y₁⟩ ⟨x₂, y₂⟩ color).runOn ⟨some c⟩ =
      (.error (if color < 0 then InvalidArgument.negativeColor else .overflow), ⟨some c⟩)) := by
  intro a b
  refine ⟨fun husable => ?_, runOn_fill_of_refused c _ _⟩
  obtain ⟨h0, hw⟩ := color_lt_iff.1 husable
  have ha : config.Contains a := config.contains_normalize _
  have hb : config.Contains b := config.contains_normalize _
  -- All four pairs of corners have the rectangle of the first pair.
  have hfill {p q : Point} (h : ∀ r, (config.normalize p).Between (config.normalize q) r ↔
      a.Between b r) :
      (fill p q color).runOn ⟨some c⟩ = (.ok (), ⟨some (c.fillBetween a b color)⟩) := by
    rw [runOn_fill c p q h0 hw, Canvas.fillBetween_congr hw c ha hb h]
  have hmix : ∀ r, (config.normalize ⟨x₂, y₁⟩).Between (config.normalize ⟨x₁, y₂⟩) r ↔
      a.Between b r := by
    intro r
    rw [config.normalize_mix x₁ y₁ x₂ y₂, config.normalize_mix x₂ y₂ x₁ y₁]
    exact Point.between_mix
  refine ⟨c.fillBetween a b color, fun p hp => Canvas.get_fillBetween hw c ha hb hp,
    hfill fun _ => Iff.rfl, hfill hmix, hfill fun r => Point.between_comm.trans (hmix r),
    hfill fun _ => Point.between_comm, fun points hpoints => ?_⟩
  rw [runOn_paintAll c h0 hw, Canvas.repaint_eq_fillBetween hw c ha hb hpoints]

end

/-- A torus of five columns and two rows. -/
def hoop : GridConfig := ⟨⟨5, 2, Nat.succ_pos _, Nat.two_pos, true⟩, false⟩

/-- The torus with one color in every cell. -/
def hoopCanvas : Canvas hoop := Canvas.filled 7 (by decide)

/-- A left corner that stands for a cell right of the cell of the other, the four cells between them
painted in another order and by other names, and the colors next to those that are usable. -/
theorem fill_paints_rectangle_reordered :
    let points : List Point := [⟨4, 1⟩, ⟨-2, 0⟩, ⟨3, 1⟩, ⟨4, 4⟩]
    (0 ≤ (6 : Int) ∧ (6 : Int) < 2 ^ 63) ∧
    (∀ p, p ∈ points.map hoop.normalize ↔ (⟨4, 1⟩ : Point).Between ⟨3, 0⟩ p) ∧
    (∃ d : Canvas hoop,
      (fill ⟨-1, 3⟩ ⟨8, 0⟩ 6).runOn ⟨some hoopCanvas⟩ = (.ok (), ⟨some d⟩) ∧
      (paintAll 6 points).runOn ⟨some hoopCanvas⟩ = (.ok (), ⟨some d⟩) ∧
      d.get ⟨3, 1⟩ = 6 ∧ d.get ⟨0, 1⟩ = 7) ∧
    (fill ⟨-1, 3⟩ ⟨8, 0⟩ (-1)).runOn ⟨some hoopCanvas⟩ =
      (.error InvalidArgument.negativeColor, ⟨some hoopCanvas⟩) ∧
    (fill ⟨-1, 3⟩ ⟨8, 0⟩ (2 ^ 63)).runOn ⟨some hoopCanvas⟩ =
      (.error .overflow, ⟨some hoopCanvas⟩) := by
  intro points
  have husable : 0 ≤ (6 : Int) ∧ (6 : Int) < 2 ^ 63 := by decide
  have hpoints : ∀ p, p ∈ points.map hoop.normalize ↔ (⟨4, 1⟩ : Point).Between ⟨3, 0⟩ p := by
    have hleft : ∀ p ∈ points.map hoop.normalize, (⟨4, 1⟩ : Point).Between ⟨3, 0⟩ p := by decide
    have hright : ∀ p ∈ rectangle ⟨4, 1⟩ ⟨3, 0⟩, p ∈ points.map hoop.normalize := by decide
    exact fun p => ⟨hleft p, fun h => hright p (mem_rectangle.2 h)⟩
  obtain ⟨d, hget, hfill, -, -, -, hpaint⟩ :=
    (fill_paints_rectangle hoopCanvas (-1) 3 8 0 6).1 husable
  refine ⟨husable, hpoints, ⟨d, hfill, hpaint points hpoints, ?_, ?_⟩, ?_, ?_⟩
  · exact hget ⟨3, 1⟩ (by decide)
  · exact (hget ⟨0, 1⟩ (by decide)).trans (Canvas.get_filled (by decide) _ (by decide))
  · exact (fill_paints_rectangle hoopCanvas (-1) 3 8 0 (-1)).2 (by decide)
  · exact (fill_paints_rectangle hoopCanvas (-1) 3 8 0 (2 ^ 63)).2 (by decide)

end Grid
end Turmite
