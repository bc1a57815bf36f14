import Turmite.Palette.Image
import Turmite.Proofs.Preservation
import Turmite.Proofs.Reproduction

/-!
# Grids without negative colors

A grid that holds cells and no negative color keeps both, whatever is done to it and also where that
is refused. Each operation looks at the sign of what it writes (`Grid.keeps_paint`,
`Grid.keeps_fill`, `Grid.keeps_rasterize`); replays and compilations write nothing else
(`Program.keeps_replay`, `Bench.keeps_compile`). On such a canvas the painted cells are those that
are not background (`Canvas.Nonneg.mem_painted`).
-/

namespace Turmite

open Procedure

/-! ## Canvases without negative colors -/

namespace Canvas

variable [Memory] {config : GridConfig} {c : Canvas config}

/-- No color is negative. -/
def Nonneg (c : Canvas config) : Prop := ∀ p, 0 ≤ c.get p

theorem nonneg_filled {color : Int} (h0 : 0 ≤ color) (hw : fitsWord color) (fits : config.Fits) :
    (filled color fits).Nonneg := by
  intro p
  unfold get filled
  rw [Vector.getElem?_replicate]
  split_ifs
  · simpa [toInt_ofInt_of_fitsWord hw] using h0
  · decide

theorem nonneg_of_blank? (h : blank? config = .ok c) : c.Nonneg := by
  unfold blank? at h
  split_ifs at h with fits
  cases h
  exact nonneg_filled (by decide) (by decide) fits

/-- A point has the color that was set, or the one it had. -/
theorem get_set_eq_or (c : Canvas config) (p q : Point) {color : Int} (hw : fitsWord color) :
    (c.set p color).get q = color ∨ (c.set p color).get q = c.get q := by
  by_cases hplace : config.index p = config.index q ∧ config.index p < config.cols * config.rows
  · left
    simp [get, set, ← hplace.1, hplace.2, toInt_ofInt_of_fitsWord hw]
  · right
    unfold get set
    rw [Vector.getElem?_setIfInBounds]
    split_ifs with hindex hsize
    · exact absurd ⟨hindex, hsize⟩ hplace
    · rw [← hindex, Vector.getElem?_eq_none (Nat.le_of_not_lt hsize)]
    · rfl

theorem Nonneg.set (h : c.Nonneg) (p : Point) {color : Int} (h0 : 0 ≤ color)
    (hw : fitsWord color) : (c.set p color).Nonneg := by
  intro q
  rcases get_set_eq_or c p q hw with heq | heq <;> rw [heq]
  · exact h0
  · exact h q

theorem Nonneg.fillBetween (h : c.Nonneg) (p q : Point) {color : Int} (h0 : 0 ≤ color)
    (hw : fitsWord color) : (c.fillBetween p q color).Nonneg := by
  unfold Canvas.fillBetween
  refine List.foldlRecOn _ _ h fun column hcolumn _ _ => ?_
  exact List.foldlRecOn _ _ hcolumn fun cell hcell _ _ => hcell.set _ h0 hw

end Canvas

/-! ## Painted cells -/

/-- The point comes first, column by column. -/
def Point.Precedes (p q : Point) : Prop := p.x < q.x ∨ p.x = q.x ∧ p.y < q.y

theorem GridConfig.pairwise_points (config : GridConfig) :
    config.points.Pairwise Point.Precedes := by
  unfold points
  rw [List.pairwise_flatMap]
  constructor
  · intro x _
    rw [List.pairwise_map]
    exact List.pairwise_lt_range.imp fun hy => Or.inr ⟨rfl, Int.ofNat_lt.2 hy⟩
  · refine List.pairwise_lt_range.imp fun hx p hp q hq => ?_
    obtain ⟨_, -, rfl⟩ := List.mem_map.1 hp
    obtain ⟨_, -, rfl⟩ := List.mem_map.1 hq
    exact Or.inl (Int.ofNat_lt.2 hx)

namespace Canvas

variable [Memory] {config : GridConfig} {c : Canvas config}

theorem pairwise_painted (c : Canvas config) : c.painted.Pairwise Point.Precedes :=
  config.pairwise_points.filter _

theorem Nonneg.mem_painted (h : c.Nonneg) {p : Point} :
    p ∈ c.painted ↔ config.Contains p ∧ c.get p ≠ 0 := by
  rw [Canvas.mem_painted, Int.lt_iff_le_and_ne]
  have := h p
  tauto

theorem length_columns (c : Canvas config) : c.columns.length = config.cols := by
  simp [columns]

theorem length_of_mem_columns {column : List Int} (h : column ∈ c.columns) :
    column.length = config.rows := by
  obtain ⟨x, -, rfl⟩ := List.mem_map.1 h
  simp

theorem exists_get_eq_of_mem_columns {color : Int} (h : color ∈ c.columns.flatten) :
    ∃ p, c.get p = color := by
  obtain ⟨column, hcolumn, hcolor⟩ := List.mem_flatten.1 h
  obtain ⟨x, -, rfl⟩ := List.mem_map.1 hcolumn
  obtain ⟨y, -, rfl⟩ := List.mem_map.1 hcolor
  exact ⟨_, rfl⟩

theorem Nonneg.columns (h : c.Nonneg) :
    c.columns.length = config.cols ∧ ∀ column ∈ c.columns, column.length = config.rows ∧
      ∀ color ∈ column, 0 ≤ color ∧ color < 2 ^ 63 := by
  refine ⟨c.length_columns, fun column hcolumn => ⟨length_of_mem_columns hcolumn, ?_⟩⟩
  intro color hcolor
  obtain ⟨p, rfl⟩ := exists_get_eq_of_mem_columns (List.mem_flatten.2 ⟨column, hcolumn, hcolor⟩)
  exact ⟨h p, (fitsWord_iff.1 (c.fitsWord_get p)).2⟩

end Canvas

/-! ## Arrays of words -/

theorem Json.fitsWord_of_wordOf? {n k : Int} (h : Json.wordOf? n = .ok k) : fitsWord k := by
  unfold Json.wordOf? at h
  split_ifs at h with hw
  cases h
  exact hw

theorem Json.fitsWord_of_word? {v : Json} {n : Int} (h : v.word? = .ok n) : fitsWord n := by
  unfold Json.word? at h
  split at h
  · exact fitsWord_of_wordOf? h
  · cases h
    split_ifs <;> decide
  · split at h
    · cases h
    · cases h
    · exact fitsWord_of_wordOf? h
  · split at h
    · exact fitsWord_of_wordOf? h
    · cases h
  · cases h

namespace WordArray

variable {a : WordArray}

theorem fitsWord_of_ofJson? {v : Json} (h : ofJson? v = .ok a) : ∀ n ∈ a.words, fitsWord n := by
  obtain ⟨shape, -, h⟩ := bind_eq_ok.1 h
  obtain ⟨words, hwords, h⟩ := bind_eq_ok.1 h
  obtain rfl := pure_eq_ok.1 h
  exact forall_of_mapM_eq_ok (P := fun n => fitsWord n) (fun _ _ => Json.fitsWord_of_word?) hwords

theorem nonneg_of_canvas? [Memory] {config : GridConfig} {c : Canvas config}
    (h0 : ∀ n ∈ a.words, 0 ≤ n) (hw : ∀ n ∈ a.words, fitsWord n) (h : a.canvas? config = .ok c) :
    c.Nonneg := by
  unfold canvas? at h
  split_ifs at h
  cases h
  intro p
  unfold Canvas.get
  rw [Vector.getElem?_mk, List.getElem?_toArray, List.getElem?_map]
  cases hn : a.words[config.index p]? with
  | none => decide
  | some n =>
    have hmem := List.mem_of_getElem? hn
    simpa [toInt_ofInt_of_fitsWord (hw n hmem)] using h0 n hmem

end WordArray

/-! ## Grids -/

namespace Grid

theorem ensureColor_eq_ok {color : Int} {u : Unit} : ensureColor color = .ok u ↔ 0 ≤ color := by
  unfold ensureColor
  rw [ensure_eq_ok, decide_eq_true_eq]

/-- The colors of an image are places in a palette. -/
theorem cellColor?_nonneg {picture : Image.Picture} {palette : Except Error (List Channels)}
    {cols rows : Nat} {p : Point} {v : Int}
    (h : picture.cellColor? palette cols rows p = .ok v) : 0 ≤ v := by
  unfold Image.Picture.cellColor? at h
  extract_lets xs ys colors sum at h
  split at h
  · cases h
    decide
  · obtain ⟨entries, -, h⟩ := bind_eq_ok.1 h
    obtain ⟨place, -, h⟩ := bind_eq_ok.1 h
    obtain rfl := pure_eq_ok.1 h
    exact Int.natCast_nonneg place

variable [Memory] {config : GridConfig} {α : Type}

/-- The grid holds cells, and no negative color. -/
def Sound (g : Grid config) : Prop := ∃ c : Canvas config, c.Nonneg ∧ g = ⟨some c⟩

theorem keeps_requireCells_bind {f : Canvas config → Procedure (Grid config) α}
    (hf : ∀ c : Canvas config, c.Nonneg → Keeps Sound (f c)) :
    Keeps Sound (requireCells >>= f) := by
  rintro _ ⟨c, hc, rfl⟩
  rw [runOn_bind_of_eq_ok (runOn_requireCells c)]
  exact hf c hc _ ⟨c, hc, rfl⟩

theorem keeps_requireCells : Keeps Sound (requireCells : Procedure (Grid config) _) := by
  rintro _ ⟨c, hc, rfl⟩
  exact ⟨c, hc, rfl⟩

theorem keeps_init : Keeps Sound (init : Procedure (Grid config) _) := by
  unfold init
  exact keeps_ofExcept_bind fun c hc =>
    keeps_bind (keeps_set ⟨c, Canvas.nonneg_of_blank? hc, rfl⟩) fun _ => keeps_pure _

theorem keeps_paint (p : Point) (color : Int) :
    Keeps Sound (paint p color : Procedure (Grid config) _) := by
  unfold paint
  refine keeps_ofExcept_bind fun _ h0 => keeps_requireCells_bind fun c hc =>
    keeps_require_bind fun hw => ?_
  exact keeps_bind (keeps_set ⟨_, hc.set _ (ensureColor_eq_ok.1 h0) hw, rfl⟩) fun _ => keeps_pure _

theorem keeps_fill (p q : Point) (color : Int) :
    Keeps Sound (fill p q color : Procedure (Grid config) _) := by
  unfold fill
  refine keeps_ofExcept_bind fun _ h0 => keeps_requireCells_bind fun c hc =>
    keeps_require_bind fun hw => ?_
  exact keeps_set ⟨_, hc.fillBetween _ _ (ensureColor_eq_ok.1 h0) hw, rfl⟩

/-- Cells are painted soundly if no color is negative, however many of them are. -/
theorem keeps_paintCells {color : Point → Except Error Int}
    (h0 : ∀ p v, color p = .ok v → 0 ≤ v) (cells : List Point) :
    Keeps Sound (paintCells color cells : Procedure (Grid config) _) := by
  induction cells with
  | nil => exact keeps_pure ()
  | cons p r ih =>
    unfold paintCells
    refine keeps_ofExcept_bind fun v hv => keeps_require_bind fun hw =>
      keeps_bind (keeps_modify ?_) fun _ => ih
    rintro _ ⟨c, hc, rfl⟩
    exact ⟨_, hc.set p (h0 p v hv) hw, rfl⟩

theorem keeps_rasterize (picture : Image.Picture) (palette : Except Error (List Channels)) :
    Keeps Sound (rasterize picture palette : Procedure (Grid config) _) := by
  have hpaint : Keeps Sound (paintCells (picture.cellColor? palette config.cols config.rows)
      config.points : Procedure (Grid config) _) :=
    keeps_paintCells (fun _ _ => cellColor?_nonneg) config.points
  unfold rasterize
  refine keeps_bind keeps_get fun g => ?_
  split_ifs
  · exact keeps_bind keeps_init fun _ => hpaint
  · exact hpaint

theorem keeps_dirtyPoints : Keeps Sound (dirtyPoints : Procedure (Grid config) _) :=
  keeps_bind keeps_requireCells fun _ => keeps_pure _

theorem keeps_compileTour (tour : List Stop) (heading : Direction) (offset : Int)
    (stopAfterDone : Bool) :
    Keeps Sound (compileTour tour heading offset stopAfterDone : Procedure (Grid config) _) := by
  unfold compileTour
  refine keeps_require_bind fun _ => keeps_require_bind fun _ => keeps_ofExcept_bind fun _ _ =>
    keeps_ofExcept_bind fun _ _ => keeps_ofExcept_bind fun _ _ => keeps_ofExcept_bind fun _ _ => ?_
  exact keeps_bind keeps_requireCells fun _ => keeps_pure _

end Grid

namespace Program

variable [Memory] {config : GridConfig}

theorem keeps_runFrom (p : Program) (limit : Nat) (state : Int) (position : Point)
    (trail : List Point) :
    Keeps Grid.Sound (p.runFrom limit state position trail : Procedure (Grid config) _) := by
  -- Each step paints one cell; where that is refused, what was painted before stays.
  induction limit generalizing state position trail with
  | zero =>
    unfold runFrom
    split
    · exact keeps_pure _
    · exact keeps_pure _
  | succ limit ih =>
    unfold runFrom
    split
    · exact keeps_pure _
    · exact keeps_ofExcept_bind fun _ _ => keeps_bind (Grid.keeps_paint _ _) fun _ => ih _ _ _

theorem keeps_replay (p : Program) (start : Point) (startState maxSteps : Int) :
    Keeps Grid.Sound (p.replay start startState maxSteps : Procedure (Grid config) _) := by
  unfold replay
  exact keeps_require_bind fun _ => p.keeps_runFrom _ _ _ _

end Program

namespace Bench

variable [Memory] {config : GridConfig}

theorem keeps_onGrid {α : Type} {p : Procedure (Grid config) α} (hp : Keeps Grid.Sound p) :
    Keeps (fun b : Bench config => b.grid.Sound) (onGrid p) :=
  keeps_within hp (fun _ h => h) fun _ _ _ h => h

theorem keeps_compile (start finish : Option Stop) (heading : Direction)
    (settings : CompileConfig) :
    Keeps (fun b : Bench config => b.grid.Sound) (compile start finish heading settings) := by
  unfold compile
  refine keeps_ofExcept_bind fun _ _ => keeps_ofExcept_bind fun _ _ =>
    keeps_ofExcept_bind fun _ _ => keeps_bind (keeps_onGrid Grid.keeps_dirtyPoints) fun _ => ?_
  split_ifs
  · exact keeps_bind (keeps_onGrid (Grid.keeps_compileTour _ _ _ _)) fun _ => keeps_pure _
  · refine keeps_bind ?_ fun _ =>
      keeps_bind (keeps_onGrid (Grid.keeps_compileTour _ _ _ _)) fun _ => keeps_pure _
    -- Planning reads the clock and leaves the grid.
    exact keeps_within (I := fun _ => True) (fun _ _ => trivial) (fun _ _ => trivial)
      fun _ _ h _ => h

end Bench

end Turmite
