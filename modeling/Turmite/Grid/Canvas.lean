import Turmite.Grid.Config

/-!
# Canvases

A canvas holds a color for each cell of a grid, column by column, each in a signed word of 64 bits.
A color is an index into a palette, zero is background. Reading and writing go by points of the
grid. A canvas fits in memory, so a large grid has none.
-/

namespace Turmite

/-- Whether a number fits a signed word of 64 bits. -/
def fitsWord (n : Int) : Bool := Int64.minValue.toInt ≤ n && n ≤ Int64.maxValue.toInt

theorem fitsWord_iff {n : Int} :
    fitsWord n = true ↔ -9223372036854775808 ≤ n ∧ n < 9223372036854775808 := by
  have hmin : Int64.minValue.toInt = -9223372036854775808 := by decide
  have hmax : Int64.maxValue.toInt = 9223372036854775808 - 1 := by decide
  unfold fitsWord
  rw [Bool.and_eq_true, decide_eq_true_eq, decide_eq_true_eq, hmin, hmax, Int.le_sub_one_iff]

theorem fitsWord_toInt (w : Int64) : fitsWord w.toInt := fitsWord_iff.2 ⟨w.le_toInt, w.toInt_lt⟩

/-- A number that fits a word is kept by it. -/
theorem toInt_ofInt_of_fitsWord {n : Int} (h : fitsWord n) : (Int64.ofInt n).toInt = n :=
  Int64.toInt_ofInt_of_le (fitsWord_iff.1 h).1 (fitsWord_iff.1 h).2

theorem fitsWord_iff_of_nonneg {n : Int} (h : 0 ≤ n) :
    fitsWord n = true ↔ n ≤ Int64.maxValue.toInt := by
  have hmax : Int64.maxValue.toInt = 9223372036854775808 - 1 := by decide
  rw [fitsWord_iff]
  omega

/-- The color of a cell that is not painted. -/
def background : Int := 0

/-- Why a grid that does not fit has no canvas. -/
def GridConfig.misfit (config : GridConfig) : Error :=
  if config.cols * config.rows < Memory.unaddressable then .outOfMemory else .gridTooLarge

/-- Whether there is memory for the cells of a grid. -/
def GridConfig.Fits [Memory] (config : GridConfig) : Prop :=
  config.cols * config.rows ≤ Memory.words

instance [Memory] (config : GridConfig) : Decidable config.Fits :=
  inferInstanceAs (Decidable (config.cols * config.rows ≤ Memory.words))

/-- The colors of the cells of a grid. -/
structure Canvas [Memory] (config : GridConfig) where
  cells : Vector Int64 (config.cols * config.rows)
  fits : config.Fits
  deriving DecidableEq

/-- Two canvases of one grid, cell by cell. -/
theorem Canvas.ext [Memory] {config : GridConfig} {c d : Canvas config} (h : c.cells = d.cells) :
    c = d := by
  cases c
  cases d
  simp_all

namespace GridConfig

variable (config : GridConfig)

/-- The place of a cell in the order of columns. -/
def index (p : Point) : Nat := p.x.toNat * config.rows + p.y.toNat

theorem index_lt {p : Point} (h : config.Contains p) :
    config.index p < config.cols * config.rows := by
  obtain ⟨⟨hx, hx'⟩, hy, hy'⟩ := h
  have h1 : p.x.toNat + 1 ≤ config.cols := by omega
  have h2 : p.y.toNat < config.rows := by omega
  calc config.index p < p.x.toNat * config.rows + config.rows := by
        unfold index
        omega
    _ = (p.x.toNat + 1) * config.rows := by rw [Nat.succ_mul]
    _ ≤ config.cols * config.rows := Nat.mul_le_mul_right _ h1

theorem index_inj {p q : Point} (hp : config.Contains p) (hq : config.Contains q)
    (h : config.index p = config.index q) : p = q := by
  obtain ⟨⟨px, _⟩, py, py'⟩ := hp
  obtain ⟨⟨qx, _⟩, qy, qy'⟩ := hq
  have hp2 : p.y.toNat < config.rows := by omega
  have hq2 : q.y.toNat < config.rows := by omega
  unfold index at h
  have hy : p.y.toNat = q.y.toNat := by
    have := congrArg (· % config.rows) h
    simpa [Nat.mul_add_mod', Nat.mod_eq_of_lt hp2, Nat.mod_eq_of_lt hq2] using this
  have hx : p.x.toNat = q.x.toNat := by
    rw [hy] at h
    exact Nat.eq_of_mul_eq_mul_right config.rows_pos (Nat.add_right_cancel h)
  cases p
  cases q
  simp only [Point.mk.injEq] at *
  omega

theorem exists_index_eq {n : Nat} (h : n < config.cols * config.rows) :
    ∃ p, config.Contains p ∧ config.index p = n := by
  have hx : n / config.rows < config.cols := Nat.div_lt_of_lt_mul (Nat.mul_comm _ _ ▸ h)
  have hy : n % config.rows < config.rows := Nat.mod_lt n config.rows_pos
  refine ⟨⟨(n / config.rows : Nat), (n % config.rows : Nat)⟩, ?_, ?_⟩
  · generalize n / config.rows = x at hx ⊢
    generalize n % config.rows = y at hy ⊢
    unfold Metric.Contains
    simp only
    omega
  · exact Nat.div_add_mod' n config.rows

/-- The cells of a grid, column by column. -/
def points : List Point :=
  (List.range config.cols).flatMap fun (x : Nat) =>
    (List.range config.rows).map fun (y : Nat) => ⟨x, y⟩

theorem mem_points {p : Point} : p ∈ config.points ↔ config.Contains p := by
  simp only [points, List.mem_flatMap, List.mem_range, List.mem_map]
  constructor
  · rintro ⟨x, hx, y, hy, rfl⟩
    unfold Metric.Contains
    simp only
    omega
  · rintro ⟨⟨hx, hx'⟩, hy, hy'⟩
    refine ⟨p.x.toNat, by omega, p.y.toNat, by omega, ?_⟩
    cases p
    simp only [Point.mk.injEq] at *
    omega

end GridConfig

namespace Canvas

variable [Memory] {config : GridConfig}

/-- A canvas of one color. -/
def filled (color : Int) (fits : config.Fits) : Canvas config :=
  ⟨Vector.replicate _ (Int64.ofInt color), fits⟩

/-- The canvas without paint. -/
def blank (fits : config.Fits) : Canvas config := filled background fits

/-- The canvas without paint of a grid that fits. -/
def blank? (config : GridConfig) : Except Error (Canvas config) :=
  if fits : config.Fits then .ok (blank fits) else .error config.misfit

/-- The canvas with all paint removed. -/
def cleared (c : Canvas config) : Canvas config := blank c.fits

/-- The color of a cell. -/
def get (c : Canvas config) (p : Point) : Int :=
  ((c.cells[config.index p]?).map Int64.toInt).getD background

/-- The canvas with one cell recolored, by a color that fits a word. -/
def set (c : Canvas config) (p : Point) (color : Int) : Canvas config :=
  ⟨c.cells.setIfInBounds (config.index p) (Int64.ofInt color), c.fits⟩

/-- A grid with a canvas fits, so its blank canvas is found. -/
@[simp] theorem blank?_eq_cleared (c : Canvas config) : blank? config = .ok c.cleared := by
  simp [blank?, cleared, c.fits]

theorem fitsWord_get (c : Canvas config) (p : Point) : fitsWord (c.get p) := by
  unfold get
  cases c.cells[config.index p]? with
  | none => decide
  | some w => exact fitsWord_toInt w

theorem get_filled {color : Int} (hw : fitsWord color) (fits : config.Fits) {p : Point}
    (h : config.Contains p) : (filled color fits).get p = color := by
  have := config.index_lt h
  simp [get, filled, this, toInt_ofInt_of_fitsWord hw]

theorem get_blank (fits : config.Fits) {p : Point} (h : config.Contains p) :
    (blank fits).get p = background :=
  get_filled (by decide) fits h

theorem get_set_self (c : Canvas config) {p : Point} (h : config.Contains p) {color : Int}
    (hw : fitsWord color) : (c.set p color).get p = color := by
  have := config.index_lt h
  simp [get, set, this, toInt_ofInt_of_fitsWord hw]

theorem get_set_of_ne (c : Canvas config) {p q : Point} (hp : config.Contains p)
    (hq : config.Contains q) (h : p ≠ q) (color : Int) : (c.set p color).get q = c.get q := by
  have hi : config.index p ≠ config.index q := fun e => h (config.index_inj hp hq e)
  simp [get, set, hi]

/-- Canvases with the same colors are the same. -/
theorem eq_of_get_eq {c d : Canvas config} (h : ∀ p, config.Contains p → c.get p = d.get p) :
    c = d := by
  refine Canvas.ext (Vector.ext fun n hn => ?_)
  obtain ⟨p, hp, rfl⟩ := config.exists_index_eq hn
  have hget := h p hp
  unfold Canvas.get at hget
  rw [Vector.getElem?_eq_getElem hn, Vector.getElem?_eq_getElem hn] at hget
  exact Int64.toInt_inj.1 hget

/-- The colors column by column. -/
def columns (c : Canvas config) : List (List Int) :=
  (List.range config.cols).map fun (x : Nat) =>
    (List.range config.rows).map fun (y : Nat) => c.get ⟨x, y⟩

/-- The painted cells, column by column. -/
def painted (c : Canvas config) : List Point := config.points.filter fun p => background < c.get p

/-- The canvas with the inclusive rectangle between two corners recolored. -/
def fillBetween (c : Canvas config) (p q : Point) (color : Int) : Canvas config :=
  let low : Point := ⟨min p.x q.x, min p.y q.y⟩
  let high : Point := ⟨max p.x q.x, max p.y q.y⟩
  (List.range (high.x - low.x + 1).toNat).foldl (fun c (dx : Nat) =>
    (List.range (high.y - low.y + 1).toNat).foldl (fun c (dy : Nat) =>
      c.set (low.shift dx dy) color) c) c

end Canvas
end Turmite
