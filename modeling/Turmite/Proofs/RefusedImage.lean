import Turmite.Board
import Turmite.Proofs.PaletteEntries
import Turmite.Proofs.PixelBlocks
import Turmite.Proofs.Retracing

/-!
# Refused images

An image that is too short or of no layout is refused before the board is touched. Its palette is
looked at when the first cell that has pixels is colored: where it cannot be read, the board has got
cells by then, and the cells before that one are background (`Grid.runOn_rasterize_of_error`). For
no other reason does a board change under an image that is refused (`Board.rasterize_refused`).
-/

namespace Turmite

namespace Image

/-! ## Colors of cells -/

variable {config : GridConfig}

/-- Whether no pixel counts for a cell. -/
def Picture.isBare (p : Picture) (config : GridConfig) (cell : Point) : Bool :=
  (cellPixels config p.width p.height cell).isEmpty

variable {p : Picture} {cell : Point}

theorem cellColor?_of_isBare (h : p.isBare config cell = true)
    (palette : Except Error (List Channels)) :
    p.cellColor? palette config.cols config.rows cell = .ok background := by
  rw [cellColor?_eq]
  exact if_pos h

theorem cellColor?_of_error (h : p.isBare config cell = false) (e : Error) :
    p.cellColor? (.error e) config.cols config.rows cell = .error e := by
  rw [cellColor?_eq]
  exact if_neg (Bool.eq_false_iff.1 h)

/-- With a palette that can be used each cell has a color, the place of an entry. -/
theorem exists_cellColor? {entries : List Channels} (h : Palette.Usable entries) (p : Picture)
    (cell : Point) : ∃ place < entries.length,
      p.cellColor? (.ok entries) config.cols config.rows cell = .ok (place : Nat) := by
  cases hbare : p.isBare config cell
  · rw [cellColor?_eq]
    obtain ⟨place, hplace, hnearest⟩ := Palette.exists_nearest? h (rfl : (mean _ _).length = 3)
    refine ⟨place, hplace, (if_neg (Bool.eq_false_iff.1 hbare)).trans ?_⟩
    show (fun k : Nat => (k : Int)) <$> Palette.nearest? entries _ = _
    rw [hnearest]
    rfl
  · exact ⟨0, List.length_pos_iff.2 h.ne_nil, cellColor?_of_isBare hbare _⟩

end Image

open Image (Picture)

/-! ## Canvases -/

namespace Canvas

variable [Memory] {config : GridConfig} {c : Canvas config} {picture : Picture}

/-- What is left of a canvas by an image whose palette is refused: the cells before the first that
has pixels are background. -/
def spoiled (c : Canvas config) (picture : Picture) : Canvas config :=
  c.repaint (fun _ => background) (config.points.takeWhile (picture.isBare config))

theorem get_spoiled {p : Point} (hp : config.Contains p) :
    (c.spoiled picture).get p =
      if p ∈ config.points.takeWhile (picture.isBare config) then background else c.get p :=
  get_repaint (fun _ _ => by decide) c
    (fun _ hq => config.mem_points.1 ((List.takeWhile_sublist _).subset hq)) hp

theorem spoiled_eq_self_iff : c.spoiled picture = c ↔
    ∀ p ∈ config.points.takeWhile (picture.isBare config), c.get p = background := by
  constructor
  · intro h p hp
    rw [← h, get_spoiled (config.mem_points.1 ((List.takeWhile_sublist _).subset hp)), if_pos hp]
  · intro h
    refine eq_of_get_eq fun p hp => ?_
    rw [get_spoiled hp]
    split_ifs with hmem
    · exact (h p hmem).symm
    · rfl

end Canvas

/-! ## Grids -/

namespace Grid

variable [Memory] {config : GridConfig}

/-- The canvas that a grid is colored on: its own or, if it has none, a blank one. -/
def ready? (g : Grid config) : Except Error (Canvas config) :=
  match g.canvas with
  | some c => .ok c
  | none => Canvas.blank? config

theorem runOn_paintCells_cons {color : Point → Except Error Int} {p : Point} {k : Int}
    (hcolor : color p = .ok k) (hk : fitsWord k = true) (cells : List Point) (c : Canvas config) :
    (paintCells color (p :: cells)).runOn ⟨some c⟩ =
      (paintCells color cells).runOn ⟨some (c.set p k)⟩ := by
  rw [paintCells, hcolor, Procedure.runOn_bind_of_eq_ok (Procedure.runOn_ofExcept _ _), hk]
  rfl

/-- Cells that all have colors are colored. -/
theorem exists_runOn_paintCells {color : Point → Except Error Int}
    (h : ∀ p, ∃ k, color p = .ok k ∧ fitsWord k = true) (cells : List Point) (c : Canvas config) :
    ∃ c', (paintCells color cells).runOn ⟨some c⟩ = (.ok (), ⟨some c'⟩) := by
  induction cells generalizing c with
  | nil => exact ⟨c, rfl⟩
  | cons p cells ih =>
    obtain ⟨k, hcolor, hk⟩ := h p
    rw [runOn_paintCells_cons hcolor hk]
    exact ih _

/-- A palette that is refused is found so at the first cell that has pixels. -/
theorem runOn_paintCells_of_error (picture : Picture) (e : Error) (cells : List Point)
    (c : Canvas config) :
    (paintCells (picture.cellColor? (.error e) config.cols config.rows) cells).runOn ⟨some c⟩ =
      (if cells.all (picture.isBare config) then .ok () else .error e,
        ⟨some (c.repaint (fun _ => background) (cells.takeWhile (picture.isBare config)))⟩) := by
  induction cells generalizing c with
  | nil => rfl
  | cons p cells ih =>
    rw [List.all_cons, List.takeWhile_cons]
    cases hbare : picture.isBare config p
    · unfold paintCells
      rw [Image.cellColor?_of_error hbare]
      rfl
    · rw [runOn_paintCells_cons (Image.cellColor?_of_isBare hbare _) (by decide), ih]
      rfl

theorem runOn_rasterize (picture : Picture) (palette : Except Error (List Channels))
    (g : Grid config) :
    (rasterize picture palette).runOn g =
      match g.ready? with
      | .error e => (.error e, g)
      | .ok c => (paintCells (picture.cellColor? palette config.cols config.rows)
          config.points).runOn ⟨some c⟩ := by
  obtain ⟨_ | c⟩ := g
  · unfold rasterize ready? init
    rw [Procedure.runOn_bind_of_eq_ok (Procedure.runOn_get _)]
    cases hblank : Canvas.blank? config with
    | error e => rfl
    | ok c => rfl
  · rfl

/-- With a palette that can be used, and places in it that fit words, an image is refused only on a
grid that has no canvas and gets none, and nothing is changed. -/
theorem eq_of_runOn_rasterize_of_usable {picture : Picture} {entries : List Channels}
    (h : Palette.Usable entries) (hlength : entries.length ≤ Nat.pow 2 63) {g g' : Grid config}
    {e : Error} (hrun : (rasterize picture (.ok entries)).runOn g = (.error e, g')) : g' = g := by
  have hcolors : ∀ p, ∃ k, picture.cellColor? (.ok entries) config.cols config.rows p = .ok k ∧
      fitsWord k = true := by
    intro p
    obtain ⟨place, hplace, hcolor⟩ := Image.exists_cellColor? h picture p
    refine ⟨place, hcolor, ?_⟩
    have hsize : Nat.pow 2 63 = 2 ^ 63 := rfl
    rw [fitsWord_iff]
    omega
  rw [runOn_rasterize] at hrun
  cases hready : g.ready? with
  | error _ =>
    rw [hready] at hrun
    exact (Prod.mk.inj hrun).2.symm
  | ok c =>
    obtain ⟨c', hpainted⟩ := exists_runOn_paintCells hcolors config.points c
    rw [hready] at hrun
    cases hpainted.symm.trans hrun

/-- With a palette that is refused, an image changes nothing on a grid that gets no canvas, and else
spoils the canvas. -/
theorem runOn_rasterize_of_error (picture : Picture) (e : Error) (g : Grid config) :
    (rasterize picture (.error e)).runOn g =
      match g.ready? with
      | .error misfit => (.error misfit, g)
      | .ok c => (if config.points.all (picture.isBare config) then .ok () else .error e,
          ⟨some (c.spoiled picture)⟩) := by
  rw [runOn_rasterize]
  cases g.ready? with
  | error _ => rfl
  | ok c => exact runOn_paintCells_of_error picture e config.points c

/-- Where a palette is refused, the grid is as it was or its canvas is spoiled, for the palette. -/
theorem eq_or_spoiled_of_error {picture : Picture} {cause e : Error} {g g' : Grid config}
    (h : (rasterize picture (.error cause)).runOn g = (.error e, g')) :
    g' = g ∨ ∃ c, g.ready? = .ok c ∧ (∃ p, config.Contains p ∧ picture.isBare config p = false) ∧
      cause = e ∧ g' = ⟨some (c.spoiled picture)⟩ := by
  rw [runOn_rasterize_of_error] at h
  cases hready : g.ready? with
  | error misfit =>
    rw [hready] at h
    exact .inl (Prod.mk.inj h).2.symm
  | ok c =>
    rw [hready] at h
    obtain ⟨herror, rfl⟩ := Prod.mk.inj h
    split_ifs at herror with hall
    obtain ⟨p, hp, hbare⟩ := List.all_eq_false.1 (Bool.eq_false_iff.2 hall)
    exact .inr ⟨c, rfl, ⟨p, config.mem_points.1 hp, Bool.eq_false_iff.2 hbare⟩,
      Except.error.inj herror, rfl⟩

/-- A grid is as it was after its canvas is spoiled if it had one, without paint in what is lost. -/
theorem spoiled_eq_iff {picture : Picture} {g : Grid config} {c : Canvas config}
    (h : g.ready? = .ok c) : (⟨some (c.spoiled picture)⟩ : Grid config) = g ↔ g.canvas = some c ∧
      ∀ p ∈ config.points.takeWhile (picture.isBare config), c.get p = background := by
  obtain ⟨_ | c'⟩ := g
  · simp
  · obtain rfl : c' = c := Except.ok.inj h
    rw [← Canvas.spoiled_eq_self_iff]
    simp

end Grid

/-! ## Boards -/

namespace Board

section

variable [Memory] {config : GridConfig}

/-- The board with another grid of the same sizes. -/
def withGrid (b : Board) (g : Grid config) : Board := { b with grid := .exact config g }

theorem withGrid_eq_self_iff {b : Board} {g g' : Grid config} (h : b.grid = .exact config g) :
    b.withGrid g' = b ↔ g' = g := by
  obtain ⟨looping, lazyInit, grid⟩ := b
  cases h
  unfold withGrid
  simp only [Board.mk.injEq, AnyGrid.exact.injEq, heq_eq_eq, true_and]

/-- What comes of an image on a board. -/
theorem runOn_rasterize (b : Board) (data width height layout palette : Json) :
    (rasterize data width height layout palette).runOn b =
      match Picture.ofData? data width height layout with
      | .error e => (.error e, b)
      | .ok picture =>
        match b.grid with
        | .loose _ => (.error .wrongType, b)
        | .exact _ g =>
          let done := (Grid.rasterize picture (Palette.ofJson? palette)).runOn g
          (done.1, b.withGrid done.2) := by
  unfold rasterize
  cases Picture.ofData? data width height layout with
  | error e => rfl
  | ok picture =>
    obtain ⟨looping, lazyInit, grid⟩ := b
    cases grid <;> rfl

/-- An image can be read and some cell has pixels of it, there is a canvas for them, but its palette
is refused. -/
structure Spoils (b : Board) (data width height layout palette : Json) (picture : Picture)
    (g : Grid config) (c : Canvas config) (e : Error) : Prop where
  read : Picture.ofData? data width height layout = .ok picture
  grid : b.grid = .exact config g
  ready : g.ready? = .ok c
  covered : ∃ p, config.Contains p ∧ picture.isBare config p = false
  refused : Palette.ofJson? palette = .error e

variable {b : Board} {data width height layout palette : Json}

theorem Spoils.runOn_rasterize {picture : Picture} {g : Grid config} {c : Canvas config} {e : Error}
    (h : b.Spoils data width height layout palette picture g c e) :
    (rasterize data width height layout palette).runOn b =
      (.error e, b.withGrid ⟨some (c.spoiled picture)⟩) := by
  obtain ⟨hpicture, hgrid, hready, ⟨p, hp, hbare⟩, hpalette⟩ := h
  have hsome : config.points.all (picture.isBare config) = false := by
    rw [List.all_eq_false]
    exact ⟨p, config.mem_points.2 hp, Bool.eq_false_iff.1 hbare⟩
  rw [Board.runOn_rasterize, hpicture, hgrid]
  simp only
  rw [hpalette, Grid.runOn_rasterize_of_error, hready]
  simp only [hsome, Bool.false_eq_true, if_false]

/-- Whatever is refused besides a palette leaves the board as it was. -/
theorem eq_or_spoils_of_refused {e : Error} {b' : Board}
    (h : (rasterize data width height layout palette).runOn b = (.error e, b')) :
    b' = b ∨
    (∃ entries, Palette.ofJson? palette = .ok entries ∧ Nat.pow 2 63 < entries.length) ∨
    ∃ picture, ∃ config, ∃ g : Grid config, ∃ c,
      b.Spoils data width height layout palette picture g c e ∧
        b' = b.withGrid ⟨some (c.spoiled picture)⟩ := by
  rw [runOn_rasterize] at h
  cases hpicture : Picture.ofData? data width height layout with
  | error _ =>
    rw [hpicture] at h
    exact .inl (Prod.mk.inj h).2.symm
  | ok picture =>
    rw [hpicture] at h
    cases hgrid : b.grid with
    | loose g =>
      rw [hgrid] at h
      exact .inl (Prod.mk.inj h).2.symm
    | exact config g =>
      rw [hgrid] at h
      simp only at h
      obtain ⟨herror, rfl⟩ := Prod.mk.inj h
      cases hpalette : Palette.ofJson? palette with
      | ok entries =>
        rw [hpalette] at herror
        by_cases hlength : entries.length ≤ Nat.pow 2 63
        · exact .inl ((withGrid_eq_self_iff hgrid).2 (Grid.eq_of_runOn_rasterize_of_usable
            (Palette.usable_of_ofJson? hpalette) hlength (Prod.ext herror rfl)))
        · exact .inr (.inl ⟨entries, rfl, Nat.lt_of_not_le hlength⟩)
      | error cause =>
        rw [hpalette] at herror
        rcases Grid.eq_or_spoiled_of_error (Prod.ext herror rfl) with
          hsame | ⟨c, hready, hcovered, rfl, hspoiled⟩
        · exact .inl ((withGrid_eq_self_iff hgrid).2 hsame)
        · exact .inr (.inr ⟨picture, config, g, c, ⟨hpicture, hgrid, hready, hcovered, hpalette⟩,
            congrArg b.withGrid hspoiled⟩)

/-- An image that is refused leaves the board as it was, unless its palette is what is refused. This
is found at the first cell that has pixels: a board without cells has got some by then, and the
cells before that one have lost their paint. So the board is still as it was just if it had cells,
and those without paint. Palettes with more entries than a word has colors are left aside. -/
theorem rasterize_refused (b : Board) (data width height layout palette : Json) :
    (∀ e b', (rasterize data width height layout palette).runOn b = (.error e, b') →
      b' = b ∨
      (∃ entries, Palette.ofJson? palette = .ok entries ∧ Nat.pow 2 63 < entries.length) ∨
      ∃ picture, ∃ config, ∃ g : Grid config, ∃ c,
        b.Spoils data width height layout palette picture g c e ∧
          b' = b.withGrid ⟨some (c.spoiled picture)⟩) ∧
    ∀ picture, ∀ config, ∀ g : Grid config, ∀ c e,
      b.Spoils data width height layout palette picture g c e →
        (rasterize data width height layout palette).runOn b =
            (.error e, b.withGrid ⟨some (c.spoiled picture)⟩) ∧
          (∀ p, config.Contains p → (c.spoiled picture).get p =
            if p ∈ config.points.takeWhile (picture.isBare config) then background else c.get p) ∧
          (b.withGrid ⟨some (c.spoiled picture)⟩ = b ↔ g.canvas = some c ∧
            ∀ p ∈ config.points.takeWhile (picture.isBare config), c.get p = background) :=
  ⟨fun _ _ h => eq_or_spoils_of_refused h, fun _ _ _ _ _ h => ⟨h.runOn_rasterize,
    fun _ hp => Canvas.get_spoiled hp,
    (withGrid_eq_self_iff h.grid).trans (Grid.spoiled_eq_iff h.ready)⟩⟩

end

section Strip

open Grid (strip spot)

/-- The closed board of four columns and two rows, with some canvas or without one. -/
def stripBoard (canvas : Option (Canvas ⟨strip, false⟩)) : Board :=
  ofGrid (.bool false) (.bool false) ⟨⟨strip, false⟩, ⟨canvas⟩⟩

/-- Colors a board after a single white pixel. -/
def whiten (palette : Json) : Procedure Board Unit :=
  rasterize (.arr [.int 255, .int 255, .int 255]) (.int 1) (.int 1) (.str (Text.ofString "RGB"))
    palette

/-- Of the cells of the board only the last one has the pixel. -/
theorem exists_spoils {canvas : Option (Canvas ⟨strip, false⟩)} {c : Canvas ⟨strip, false⟩}
    {palette : Json} {e : Error} (hready : Grid.ready? ⟨canvas⟩ = .ok c)
    (hpalette : Palette.ofJson? palette = .error e) :
    ∃ samples, (stripBoard canvas).Spoils (.arr [.int 255, .int 255, .int 255]) (.int 1) (.int 1)
      (.str (Text.ofString "RGB")) palette ⟨samples, 1, 1, .rgb⟩ ⟨canvas⟩ c e :=
  ⟨_, rfl, rfl, hready, ⟨⟨3, 1⟩, by decide, by decide +kernel⟩, hpalette⟩

/-- A board without cells has cells after an image with a ragged palette is refused. -/
theorem rasterize_refused_ragged :
    ∃ c, (whiten (.arr [.arr [.int 0, .int 0, .int 0], .arr [.int 255]])).runOn (stripBoard none) =
        (.error .unreadableArray, stripBoard (some c)) ∧
      (∀ p, strip.Contains p → c.get p = background) ∧ stripBoard (some c) ≠ stripBoard none := by
  have hready : (⟨none⟩ : Grid ⟨strip, false⟩).ready? = .ok spot.cleared :=
    Canvas.blank?_eq_cleared spot
  obtain ⟨samples, hspoils⟩ := exists_spoils hready
    (rfl : Palette.ofJson? (.arr [.arr [.int 0, .int 0, .int 0], .arr [.int 255]]) =
      .error .unreadableArray)
  obtain ⟨hrun, hcells, hsame⟩ := (rasterize_refused _ _ _ _ _ _).2 _ _ _ _ _ hspoils
  refine ⟨_, hrun, fun p hp => ?_, fun heq => ?_⟩
  · rw [hcells p hp, Canvas.cleared, Canvas.get_blank spot.fits hp, ite_self]
  · cases (hsame.1 heq).1

/-- A painted cell is background after an image without a palette is refused. -/
theorem paint_lost_without_palette :
    ∃ c, (whiten (.arr [])).runOn (stripBoard (some spot)) =
        (.error .unreadableArray, stripBoard (some c)) ∧
      spot.get ⟨1, 0⟩ = 2 ∧ c.get ⟨1, 0⟩ = background := by
  obtain ⟨samples, hspoils⟩ := exists_spoils (rfl : (⟨some spot⟩ : Grid _).ready? = .ok spot)
    (rfl : Palette.ofJson? (.arr []) = .error .unreadableArray)
  refine ⟨_, hspoils.runOn_rasterize, by decide +kernel, ?_⟩
  have hlost : (⟨1, 0⟩ : Point) ∈ (GridConfig.points ⟨strip, false⟩).takeWhile
      ((⟨samples, 1, 1, .rgb⟩ : Picture).isBare ⟨strip, false⟩) := by
    show ⟨1, 0⟩ ∈ (GridConfig.points ⟨strip, false⟩).takeWhile fun cell =>
      (Image.cellPixels ⟨strip, false⟩ 1 1 cell).isEmpty
    decide +kernel
  rw [Canvas.get_spoiled (by decide), if_pos hlost]

end Strip

end Board
end Turmite
