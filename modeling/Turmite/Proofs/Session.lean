import Turmite.Board
import Turmite.Proofs.GridInvariant

/-!
# Sessions

Whatever is done to a board that was made blank or around a table of colors, and however much of it
is refused, the board keeps its sizes and its cells, and no cell gets a negative color. What one
call keeps (`Board.Call.keeps_perform`) is kept by any number of them (`Board.holds_afterCalls`), so
the painted cells are those that are not background, column by column (`Board.cells_after_calls`).
-/

namespace Turmite

open Procedure

/-! ## Boards -/

namespace Board

theorem keeps_compileFrom {σ : Type} {I : σ → Prop} {compile : Nat → Bool → Procedure σ Compiled}
    (h : ∀ offset stops, Keeps I (compile offset stops)) (first : Json) (stopAfterDone : Bool) :
    Keeps I (compileFrom first stopAfterDone compile) := by
  unfold compileFrom
  refine keeps_ofExcept_bind fun _ _ => ?_
  split
  · exact keeps_bind (h _ _) fun _ => keeps_pure _
  · exact keeps_bind (h _ _) fun _ => keeps_ofExcept _

section

variable [Memory] {config : GridConfig} {α : Type}

/-- The board is a sound grid of the configuration. -/
def Holds (config : GridConfig) (b : Board) : Prop :=
  ∃ g : Grid config, g.Sound ∧ b.grid = .exact config g

theorem keeps_onGrid {exact : (config : GridConfig) → Procedure (Grid config) α}
    {loose : Procedure LooseGrid α} (h : Keeps Grid.Sound (exact config)) :
    Keeps (Holds config) (onGrid exact loose) := by
  rintro ⟨looping, lazyInit, _⟩ ⟨g, hg, rfl⟩
  exact ⟨_, h g hg, rfl⟩

theorem keeps_onBench {exact : (config : GridConfig) → Procedure (Bench config) α}
    {loose : Procedure LooseGrid.Bench α}
    (h : Keeps (fun b : Bench config => b.grid.Sound) (exact config)) :
    Keeps (fun s : Board × Clock => Holds config s.1) (onBench exact loose) := by
  rintro ⟨⟨looping, lazyInit, _⟩, clock⟩ ⟨g, hg, rfl⟩
  exact ⟨_, h ⟨g, clock⟩ hg, rfl⟩

theorem keeps_init : Keeps (Holds config) init :=
  keeps_onGrid (keeps_bind Grid.keeps_init fun _ => keeps_pure _)

theorem keeps_requireCells : Keeps (Holds config) requireCells :=
  keeps_onGrid (keeps_bind Grid.keeps_requireCells fun _ => keeps_pure _)

theorem keeps_prepareColor (color : Json) : Keeps (Holds config) (prepareColor color) := by
  unfold prepareColor
  exact keeps_ofExcept_bind fun _ _ => keeps_bind keeps_requireCells fun _ => keeps_pure _

theorem keeps_cellOf (p : Point) : Keeps (Holds config) (cellOf p) :=
  keeps_bind keeps_get fun _ => keeps_ofExcept _

theorem keeps_paint (s : Stop) (color : Json) : Keeps (Holds config) (paint s color) := by
  unfold paint
  refine keeps_bind (keeps_prepareColor color) fun _ => keeps_ofExcept_bind fun p _ =>
    keeps_bind (keeps_cellOf p) fun _ => keeps_ofExcept_bind fun _ _ => ?_
  exact keeps_bind (keeps_onGrid (Grid.keeps_paint _ _)) fun _ => keeps_pure _

theorem keeps_fill (area : List Json) (color : Json) : Keeps (Holds config) (fill area color) := by
  unfold fill
  split
  · refine keeps_bind (keeps_prepareColor color) fun _ => keeps_ofExcept_bind fun p _ =>
      keeps_bind (keeps_cellOf p) fun _ => keeps_ofExcept_bind fun q _ =>
      keeps_bind (keeps_cellOf q) fun _ => keeps_ofExcept_bind fun _ _ => ?_
    exact keeps_onGrid (Grid.keeps_fill _ _ _)
  · exact keeps_throw _

theorem keeps_rasterize (data width height layout palette : Json) :
    Keeps (Holds config) (rasterize data width height layout palette) := by
  unfold rasterize
  exact keeps_ofExcept_bind fun _ _ => keeps_onGrid (Grid.keeps_rasterize _ _)

theorem keeps_compileTour (tour : List Stop) (heading : Direction) (first : Json)
    (stopAfterDone : Bool) :
    Keeps (Holds config) (compileTour tour heading first stopAfterDone) := by
  unfold compileTour
  exact keeps_require_bind fun _ => keeps_compileFrom
    (fun _ _ => keeps_onGrid (Grid.keeps_compileTour _ _ _ _)) _ _

theorem keeps_compile (start finish : Option Stop) (heading : Direction) (first : Json)
    (settings : CompileConfig) :
    Keeps (fun s : Board × Clock => Holds config s.1)
      (compile start finish heading first settings) :=
  keeps_compileFrom (fun _ _ => keeps_onBench (Bench.keeps_compile _ _ _ _)) _ _

theorem keeps_runFrom (p : LooseProgram) (limit : Nat) (state : Json) (position : Point)
    (trail : List Point) : Keeps (Holds config) (runFrom p limit state position trail) := by
  induction limit generalizing state position trail with
  | zero =>
    unfold runFrom
    refine keeps_ofExcept_bind fun next _ => ?_
    split
    · exact keeps_pure _
    · exact keeps_pure _
  | succ limit ih =>
    unfold runFrom
    refine keeps_ofExcept_bind fun next _ => ?_
    split
    · exact keeps_pure _
    · exact keeps_ofExcept_bind fun _ _ => keeps_bind (keeps_paint _ _) fun _ =>
        keeps_bind keeps_get fun _ => keeps_ofExcept_bind fun _ _ => ih _ _ _

theorem keeps_replay (p : LooseProgram) (start : Stop) (startState maxSteps : Json) :
    Keeps (Holds config) (replay p start startState maxSteps) := by
  unfold replay
  refine keeps_ofExcept_bind fun _ _ => keeps_ofExcept_bind fun _ _ =>
    keeps_bind (keeps_cellOf _) fun _ => ?_
  split
  · exact keeps_bind (keeps_onGrid (Program.keeps_replay _ _ _ _)) fun _ => keeps_pure _
  · exact keeps_runFrom _ _ _ _ _

/-! ## Calls -/

/-- What can be done to the cells of a board, with the arguments as a caller gives them. -/
inductive Call where
  | init
  | set (stop : Stop) (color : Json)
  | colorPoint (x y color : Json)
  | fillArea (area : List Json) (color : Json)
  | convertImage (data width height layout palette : Json)
  | replay (program : LooseProgram) (start : Stop) (startState maxSteps : Json)
  | compileTour (tour : List Stop) (heading first : Json) (stopAfterDone : Bool)
  | compileGrid (start finish : Option Stop) (heading first : Json) (settings : CompileConfig)

/-- A procedure on a board beside a clock, without its result. -/
def besideClock (p : Procedure Board α) : Procedure (Board × Clock) Unit := do
  let _ ← p.within (·.1) fun b s => (b, s.2)

/-- What a call does. -/
def Call.perform : Call → Procedure (Board × Clock) Unit
  | init => besideClock Board.init
  | set stop color => besideClock (paint stop color)
  | colorPoint x y color => besideClock do
    paint (.point (← Procedure.ofExcept (Point.ofValues? x y))) color
  | fillArea area color => besideClock (fill area color)
  | convertImage data width height layout palette =>
    besideClock (rasterize data width height layout palette)
  | replay program start startState maxSteps =>
    besideClock (Board.replay program start startState maxSteps)
  | compileTour tour heading first stopAfterDone => besideClock do
    Board.compileTour tour (← Procedure.ofExcept (Direction.heading? heading)) first stopAfterDone
  | compileGrid start finish heading first settings => do
    let heading ← Procedure.ofExcept (Direction.heading? heading)
    let _ ← compile start finish heading first settings

/-- A board and its clock after calls, of which any may be refused. -/
def afterCalls (s : Board × Clock) (calls : List Call) : Board × Clock :=
  calls.foldl (fun s call => (call.perform.runOn s).2) s

theorem keeps_besideClock {p : Procedure Board α} (hp : Keeps (Holds config) p) :
    Keeps (fun s : Board × Clock => Holds config s.1) (besideClock p) :=
  keeps_bind (keeps_within hp (fun _ h => h) fun _ _ _ h => h) fun _ => keeps_pure _

theorem Call.keeps_perform (call : Call) :
    Keeps (fun s : Board × Clock => Holds config s.1) call.perform := by
  cases call with
  | init => exact keeps_besideClock keeps_init
  | set stop color => exact keeps_besideClock (keeps_paint stop color)
  | colorPoint x y color =>
    exact keeps_besideClock (keeps_ofExcept_bind fun _ _ => keeps_paint _ color)
  | fillArea area color => exact keeps_besideClock (keeps_fill area color)
  | convertImage data width height layout palette =>
    exact keeps_besideClock (keeps_rasterize data width height layout palette)
  | replay program start startState maxSteps =>
    exact keeps_besideClock (keeps_replay program start startState maxSteps)
  | compileTour tour heading first stopAfterDone =>
    exact keeps_besideClock (keeps_ofExcept_bind fun _ _ =>
      keeps_compileTour tour _ first stopAfterDone)
  | compileGrid start finish heading first settings =>
    exact keeps_ofExcept_bind fun _ _ =>
      keeps_bind (keeps_compile start finish _ first settings) fun _ => keeps_pure _

theorem holds_afterCalls {s : Board × Clock} (h : Holds config s.1) (calls : List Call) :
    Holds config (afterCalls s calls).1 := by
  unfold afterCalls
  induction calls generalizing s with
  | nil => exact h
  | cons call calls ih => exact ih (call.keeps_perform s h)

/-! ## New boards -/

/-- The board was made blank, or around a table of colors. -/
inductive Made : Board → Prop
  | blank {cols rows looping lazyInit : Json} {b : Board}
      (h : ofSizes? cols rows looping lazyInit .blank = .ok b) : Made b
  | cells {cells looping : Json} {b : Board} (h : ofCells? cells looping = .ok b) : Made b

theorem holds_of_ofSizes? {cols rows looping lazyInit : Json} {b : Board}
    (h : ofSizes? cols rows looping lazyInit .blank = .ok b) : ∃ config, Holds config b := by
  unfold ofSizes? at h
  obtain ⟨_, -, h⟩ := bind_eq_ok.1 h
  extract_lets loops fills at h
  split at h
  · obtain ⟨config, -, h⟩ := bind_eq_ok.1 h
    obtain ⟨g, hg, h⟩ := bind_eq_ok.1 h
    obtain ⟨c, hc, hg⟩ := bind_eq_ok.1 hg
    obtain rfl := pure_eq_ok.1 hg
    obtain rfl := pure_eq_ok.1 h
    exact ⟨config, _, ⟨c, Canvas.nonneg_of_blank? hc, rfl⟩, rfl⟩
  · obtain ⟨_, hg, -⟩ := bind_eq_ok.1 h
    cases hg

theorem holds_of_ofCells? {cells looping : Json} {b : Board}
    (h : ofCells? cells looping = .ok b) : ∃ config, Holds config b := by
  obtain ⟨⟨config, g⟩, hg, h⟩ := bind_eq_ok.1 h
  obtain rfl := pure_eq_ok.1 h
  obtain ⟨a, ha, hg⟩ := bind_eq_ok.1 hg
  unfold Grid.ofTable? at hg
  split at hg
  · obtain ⟨_, h0, hg⟩ := bind_eq_ok.1 hg
    obtain ⟨config', -, hg⟩ := bind_eq_ok.1 hg
    obtain ⟨g', hg', hg⟩ := bind_eq_ok.1 hg
    obtain ⟨c, hc, hg'⟩ := bind_eq_ok.1 hg'
    obtain rfl := pure_eq_ok.1 hg'
    cases pure_eq_ok.1 hg
    have hsigns : ∀ n ∈ a.words, 0 ≤ n := by
      simpa using ensure_eq_ok.1 h0
    exact ⟨config, _, ⟨c, WordArray.nonneg_of_canvas? hsigns
      (WordArray.fitsWord_of_ofJson? ha) hc, rfl⟩, rfl⟩
  · cases hg

theorem Made.holds {b : Board} (h : Made b) : ∃ config, Holds config b := by
  cases h with
  | blank h => exact holds_of_ofSizes? h
  | cells h => exact holds_of_ofCells? h

/-! ## Sessions -/

/-- The cells of a board after any calls, with any arguments. They have the sizes that the board was
made with, each holds a color that is not negative and fits a word, and the painted ones are those
that are not background, column by column. -/
theorem cells_after_calls {b : Board} (h : Made b) (clock : Clock) (calls : List Call) :
    ∃ config : GridConfig, ∃ (c : Canvas config) (after : Board) (clock' : Clock)
        (points : List Point),
      b.sizes = (.int config.cols, .int config.rows) ∧
      afterCalls (b, clock) calls = (after, clock') ∧
      after.sheet? = some ⟨config, c⟩ ∧
      (c.columns.length = config.cols ∧ ∀ column ∈ c.columns, column.length = config.rows ∧
        ∀ color ∈ column, 0 ≤ color ∧ color < 2 ^ 63) ∧
      dirtyPoints.runOn after = (.ok points, after) ∧
      points.Pairwise Point.Precedes ∧
      ∀ p, p ∈ points ↔ config.Contains p ∧ c.get p ≠ 0 := by
  obtain ⟨config, hb⟩ := h.holds
  obtain ⟨⟨looping, lazyInit, after⟩, clock', hrun⟩ :
      ∃ after clock', afterCalls (b, clock) calls = (after, clock') := ⟨_, _, rfl⟩
  have hafter : Holds config (afterCalls (b, clock) calls).1 := holds_afterCalls hb calls
  rw [hrun] at hafter
  obtain ⟨_, ⟨c, hc, rfl⟩, hgrid⟩ := hafter
  simp only at hgrid
  subst hgrid
  refine ⟨config, c, _, clock', c.painted, ?_, hrun, rfl, hc.columns, rfl, c.pairwise_painted,
    fun p => hc.mem_painted⟩
  obtain ⟨g, -, hg⟩ := hb
  unfold sizes
  rw [hg]

end

/-- A closed board of three columns and two rows, without paint. -/
def slate : Board :=
  ⟨.bool false, .bool true, .exact ⟨⟨3, 2, Nat.add_pos_right 1 Nat.two_pos, Nat.two_pos, false⟩, true⟩
    ⟨some (Canvas.blank (by decide))⟩⟩

/-- A cell painted from above the board, and then a filling and, after its first step, a replay that
are refused for their colors. -/
def patchwork : List Call :=
  [.set (.point ⟨1, 5⟩) (.int 4), .fillArea [.int 0, .int 0, .int 2, .int 1] (.int (-1)),
    .replay ⟨[(.int 0, [⟨.int 2, .left, .int 1⟩]), (.int 1, [⟨.int (-3), .left, .int 1⟩])]⟩
      (.point ⟨0, 0⟩) (.int 0) (.int 10)]

theorem cells_after_patchwork :
    Made slate ∧ ∃ (after : Board) (points : List Point),
      (afterCalls (slate, ⟨[], 0⟩) patchwork).1 = after ∧
      dirtyPoints.runOn after = (.ok points, after) ∧ points.Pairwise Point.Precedes ∧
      points = [⟨0, 0⟩, ⟨1, 1⟩] := by
  have hmade : Made slate :=
    .blank (rfl : ofSizes? (.int 3) (.int 2) (.bool false) (.bool true) .blank = .ok slate)
  obtain ⟨_, _, after, _, points, -, hafter, -, -, hpoints, hpairwise, -⟩ :=
    cells_after_calls hmade ⟨[], 0⟩ patchwork
  have hboard : (afterCalls (slate, ⟨[], 0⟩) patchwork).1 = after := congrArg Prod.fst hafter
  have hpainted : (dirtyPoints.runOn (afterCalls (slate, ⟨[], 0⟩) patchwork).1).1 =
      .ok [⟨0, 0⟩, ⟨1, 1⟩] := rfl
  rw [hboard, hpoints] at hpainted
  exact ⟨hmade, after, points, hboard, hpoints, hpairwise, Except.ok.inj hpainted⟩

end Board
end Turmite
