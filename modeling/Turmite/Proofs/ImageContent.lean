import Turmite.Proofs.GridFiles
import Turmite.Proofs.RefusedImage

/-!
# Images of one content

Of the samples of a pixel three are its color, wherever its layout puts them. A picture is read from
samples in any layout, and shows the colors alone: what stands beside them and after the last pixel
is not looked at (`Image.exists_shows`). Each cell is colored after the picture, whatever it held
before, so that boards of the same sizes end with the same colors (`Board.colors_of_content`). Yet
every sample has to be one: what binary64 cannot hold is refused even where it shows nothing.
-/

namespace Turmite

/-! ## Lists of rows -/

/-- Rows of one width lie evenly spaced one behind the other. -/
theorem getElem?_flatten_of_width {α : Type} {width : Nat} {rows : List (List α)}
    (h : ∀ row ∈ rows, row.length = width) (n : Nat) {k : Nat} (hk : k < width) :
    rows.flatten[n * width + k]? = rows[n]?.bind (·[k]?) := by
  induction rows generalizing n with
  | nil => simp
  | cons row rows ih =>
    obtain ⟨hrow, hrows⟩ := List.forall_mem_cons.1 h
    rw [List.flatten_cons]
    cases n with
    | zero =>
      rw [Nat.zero_mul, Nat.zero_add, List.getElem?_append_left (by omega)]
      rfl
    | succ n =>
      have hsub : (n + 1) * width + k - row.length = n * width + k := by
        rw [hrow, Nat.succ_mul]
        omega
      rw [List.getElem?_append_right (by rw [hrow, Nat.succ_mul]; omega), hsub, ih hrows]
      rfl

theorem length_flatten_of_width {α : Type} {width : Nat} {rows : List (List α)}
    (h : ∀ row ∈ rows, row.length = width) : rows.flatten.length = rows.length * width := by
  rw [List.length_flatten, List.map_congr_left h, List.map_const', List.sum_replicate, smul_eq_mul]

/-! ## Samples -/

namespace Json

/-- A sample is no list. -/
theorem extents?_of_sample? {v : Json} {x : Float} (h : v.sample? = .ok x) :
    v.extents? = .ok [] := by
  cases v <;> first | rfl | cases h

theorem leaves_of_extents? {v : Json} (h : v.extents? = .ok []) : v.leaves = [v] := by
  cases v with
  | arr items =>
    rw [extents?] at h
    obtain ⟨parts, -, h⟩ := bind_eq_ok.1 h
    obtain ⟨inner, -, h⟩ := bind_eq_ok.1 h
    cases h
  | _ => rfl

theorem leavesOf_of_extents? {items : List Json} (h : ∀ v ∈ items, v.extents? = .ok []) :
    leavesOf items = items := by
  rw [leavesOf_eq_flatMap, List.flatMap_congr fun v hv => leaves_of_extents? (h v hv)]
  exact List.flatMap_singleton' items

end Json

namespace Samples

/-- The array of a list of items that are no lists. -/
theorem ofJson?_flat {items : List Json} (hne : items ≠ []) (h : ∀ v ∈ items, v.extents? = .ok []) :
    ofJson? (.arr items) =
      (fun values => ⟨[items.length], values⟩) <$> items.mapM Json.sample? := by
  have hextents : (Json.arr items).extents? = .ok [items.length] := by
    have := Json.extents?_map (f := id) (List.length_pos_iff.2 hne) h
    rwa [List.map_id] at this
  unfold ofJson? Json.shape?
  rw [hextents, Json.leaves, Json.leavesOf_of_extents? h]
  rfl

end Samples

namespace Palette

/-- A palette of rows of three samples is read, row by row. -/
theorem exists_ofJson? {rows : List (List Json)} (hne : rows ≠ [])
    (h : ∀ row ∈ rows, row.length = 3 ∧ ∀ v ∈ row, ∃ x, v.sample? = .ok x) :
    ∃ entries, ofJson? (.arr (rows.map .arr)) = .ok entries ∧ entries.length = rows.length := by
  have hitems : ∀ row ∈ rows, ∀ v ∈ row, v.extents? = .ok [] := fun row hrow v hv =>
    Json.extents?_of_sample? ((h row hrow).2 v hv).choose_spec
  have hextents : (Json.arr (rows.map .arr)).extents? = .ok [rows.length, 3] := by
    refine Json.extents?_map (List.length_pos_iff.2 hne) fun row hrow => ?_
    have hlength := (h row hrow).1
    have := Json.extents?_map (f := id) (by omega) (hitems row hrow)
    rwa [List.map_id, hlength] at this
  have hleaves : (Json.arr (rows.map .arr)).leaves = rows.flatten := by
    rw [Json.leaves, Json.leavesOf_eq_flatMap, List.flatMap_map, List.flatten_eq_flatMap]
    exact List.flatMap_congr fun row hrow => Json.leavesOf_of_extents? (hitems row hrow)
  have hsamples : ∀ v ∈ rows.flatten, ∃ x, v.sample? = .ok x := fun v hv => by
    obtain ⟨row, hrow, hv⟩ := List.mem_flatten.1 hv
    exact (h row hrow).2 v hv
  obtain ⟨values, hvalues⟩ := exists_mapM_eq_ok hsamples
  have hread : Samples.ofJson? (.arr (rows.map .arr)) = .ok ⟨[rows.length, 3], values⟩ := by
    unfold Samples.ofJson? Json.shape?
    rw [hextents, hleaves, hvalues]
    rfl
  refine ⟨Samples.cut 3 values rows.length, ?_, Samples.length_cut _ _ _⟩
  unfold ofJson?
  rw [hread]
  have hmeets : Samples.meets [3, 1] [3, rows.length] = true := by simp [Samples.meets]
  show (Samples.mk [rows.length, 3] values).entries? [3] = _
  unfold Samples.entries?
  simp only [List.reverse_cons, List.reverse_nil, List.nil_append, List.cons_append, hmeets]
  rfl

end Palette

/-! ## Pixels -/

/-- The color of a pixel. -/
structure Rgb where
  red : Float
  green : Float
  blue : Float

/-- The three channels of a color. -/
def Rgb.channels (c : Rgb) : Channels := [c.red, c.green, c.blue]

namespace PixelLayout

/-- The samples of a pixel. The alpha comes last in both of the layouts that have one. -/
def arrange : PixelLayout → Rgb → (alpha : Float) → List Float
  | rgba, c, alpha => [c.red, c.green, c.blue, alpha]
  | rgb, c, _ => [c.red, c.green, c.blue]
  | abgr, c, alpha => [c.blue, c.green, c.red, alpha]

/-- Whether items are the samples of pixels of given colors, row by row. Where the layout has an
alpha it may be any, and so may be what comes after the last pixel. -/
def Spells (layout : PixelLayout) (colors : List Rgb) (items : List Json) : Prop :=
  ∃ alphas surplus : List Float, alphas.length = colors.length ∧
    items.mapM Json.sample? = .ok ((List.zipWith layout.arrange colors alphas).flatten ++ surplus)

theorem length_arrange (layout : PixelLayout) (c : Rgb) (alpha : Float) :
    (layout.arrange c alpha).length = layout.stride := by
  cases layout <;> rfl

theorem length_of_mem_zipWith (layout : PixelLayout) {colors : List Rgb} {alphas : List Float} :
    ∀ frame ∈ List.zipWith layout.arrange colors alphas, frame.length = layout.stride := by
  intro frame hframe
  obtain ⟨n, hn, rfl⟩ := List.getElem_of_mem hframe
  rw [List.getElem_zipWith]
  exact layout.length_arrange _ _

theorem lt_stride_of_mem_channels {layout : PixelLayout} {k : Nat} (h : k ∈ layout.channels) :
    k < layout.stride := by
  cases layout <;> revert k <;> decide

/-- The places of the channels among the samples of a pixel hold its color. -/
theorem map_arrange_channels (layout : PixelLayout) (c : Rgb) (alpha : Float) :
    (layout.channels.map fun k => (layout.arrange c alpha)[k]?.getD 0.0) = c.channels := by
  cases layout <;> rfl

theorem ofJson?_name (layout : PixelLayout) :
    ofJson? (.str (Text.ofString layout.name)) = .ok layout := by
  cases layout <;> rfl

end PixelLayout

namespace Image

/-- A picture has pixels of given colors, row by row. -/
structure Picture.Shows (p : Picture) (width height : Nat) (colors : List Rgb) : Prop where
  width_eq : p.width = width
  height_eq : p.height = height
  pixel_eq : ∀ {x y}, x < width → y < height →
    ∃ c, colors[y * width + x]? = some c ∧ p.pixel x y = c.channels

variable {width height : Nat} {colors : List Rgb}

/-- The samples of pixels in any layout are a picture of their colors. -/
theorem shows_of_arranged (layout : PixelLayout) {alphas : List Float}
    (hcolors : colors.length = width * height) (halphas : alphas.length = colors.length) :
    (⟨(List.zipWith layout.arrange colors alphas).flatten.toArray, width, height, layout⟩ :
      Picture).Shows width height colors where
  width_eq := rfl
  height_eq := rfl
  pixel_eq := by
    intro x y hx hy
    have hplace : y * width + x < colors.length := by
      rw [hcolors]
      calc y * width + x < (y + 1) * width := by rw [Nat.succ_mul]; omega
        _ ≤ height * width := Nat.mul_le_mul_right _ hy
        _ = width * height := Nat.mul_comm _ _
    refine ⟨colors[y * width + x], List.getElem?_eq_getElem hplace, ?_⟩
    rw [← layout.map_arrange_channels _ (alphas[y * width + x])]
    refine List.map_congr_left fun k hk => ?_
    have hframes : ∀ frame ∈ List.zipWith layout.arrange colors alphas,
        frame.length = layout.stride := layout.length_of_mem_zipWith
    rw [Array.getD_eq_getD_getElem?, List.getElem?_toArray,
      getElem?_flatten_of_width hframes _ (PixelLayout.lt_stride_of_mem_channels hk),
      List.getElem?_zipWith_eq_some.2 ⟨_, _, List.getElem?_eq_getElem hplace,
        List.getElem?_eq_getElem (by omega), rfl⟩]
    rfl

/-- A picture is read from a list of samples that is long enough. -/
theorem ofData?_of_samples (layout : PixelLayout) {items : List Json} {samples : List Float}
    (hwidth : 1 ≤ width) (hheight : 1 ≤ height) (hsamples : items.mapM Json.sample? = .ok samples)
    (hlength : width * height * layout.stride ≤ samples.length) :
    Picture.ofData? (.arr items) (.int width) (.int height) (.str (Text.ofString layout.name)) =
      .ok ⟨(samples.take (width * height * layout.stride)).toArray, width, height, layout⟩ := by
  have hcount := length_of_mapM_eq_ok hsamples
  have hne : items ≠ [] := by
    have hstride : 1 ≤ layout.stride := by cases layout <;> decide
    have hpos : 1 ≤ width * height * layout.stride :=
      Nat.mul_pos (Nat.mul_pos hwidth hheight) hstride
    exact List.length_pos_iff.1 (by omega)
  have hitems : ∀ v ∈ items, v.extents? = .ok [] := fun v hv =>
    Json.extents?_of_sample? (exists_of_mem_of_mapM_eq_ok hsamples v hv).choose_spec
  have hread : Samples.ofJson? (.arr items) = .ok ⟨[items.length], samples⟩ := by
    rw [Samples.ofJson?_flat hne hitems, hsamples]
    rfl
  have hleading : leadingSamples? [items.length] samples (width * height * layout.stride) =
      .ok (samples.take (width * height * layout.stride)) := by
    have hkept : min items.length (width * height * layout.stride) =
        width * height * layout.stride := by omega
    unfold leadingSamples?
    simp only [List.headD_cons, List.drop_one, List.tail_cons, List.foldl_nil, Nat.mul_one, hkept]
    exact bind_eq_ok.2 ⟨(), ensure_eq_ok.2 (decide_eq_true trivial), rfl⟩
  refine bind_eq_ok.2 ⟨_, layout.ofJson?_name, bind_eq_ok.2 ⟨_, Json.ensureAtLeast_natCast hwidth _,
    bind_eq_ok.2 ⟨_, Json.ensureAtLeast_natCast hheight _, bind_eq_ok.2 ⟨_, hread, ?_⟩⟩⟩⟩
  refine bind_eq_ok.2 ⟨_, Json.product?_natCast width height, bind_eq_ok.2
    ⟨_, Json.product?_natCast (width * height) layout.stride, bind_eq_ok.2
    ⟨_, Json.isLess?_natCast samples.length _, ?_⟩⟩⟩
  rw [decide_eq_false (by omega)]
  exact bind_eq_ok.2 ⟨_, rfl, bind_eq_ok.2 ⟨_, hleading, rfl⟩⟩

/-- An item that is no sample is refused, wherever it stands in a list. -/
theorem ofData?_of_error (layout : PixelLayout) {items : List Json} {e : Error}
    (hwidth : 1 ≤ width) (hheight : 1 ≤ height) (hitems : ∀ v ∈ items, v.extents? = .ok [])
    (hsamples : items.mapM Json.sample? = .error e) :
    Picture.ofData? (.arr items) (.int width) (.int height) (.str (Text.ofString layout.name)) =
      .error e := by
  have hne : items ≠ [] := by
    rintro rfl
    cases hsamples
  have hread : Samples.ofJson? (.arr items) = .error e := by
    rw [Samples.ofJson?_flat hne hitems, hsamples]
    rfl
  have hsides {side : Nat} (hside : 1 ≤ side) :
      (Json.int side).ensureAtLeast 1 InvalidArgument.imageTooSmall = .ok () :=
    Json.ensureAtLeast_natCast hside _
  unfold Picture.ofData?
  rw [layout.ofJson?_name, hsides hwidth, hsides hheight, hread]
  rfl

/-- A picture is read from the samples of pixels in any layout. -/
theorem exists_shows {layout : PixelLayout} {items : List Json} (hwidth : 1 ≤ width)
    (hheight : 1 ≤ height) (hcolors : colors.length = width * height)
    (h : layout.Spells colors items) :
    ∃ picture, Picture.ofData? (.arr items) (.int width) (.int height)
      (.str (Text.ofString layout.name)) = .ok picture ∧ picture.Shows width height colors := by
  obtain ⟨alphas, surplus, halphas, hsamples⟩ := h
  have hlength : (List.zipWith layout.arrange colors alphas).flatten.length =
      width * height * layout.stride := by
    rw [length_flatten_of_width (layout.length_of_mem_zipWith), List.length_zipWith, halphas,
      Nat.min_self, hcolors]
  refine ⟨_, ofData?_of_samples layout hwidth hheight hsamples ?_, ?_⟩
  · rw [List.length_append, hlength]
    omega
  · rw [← hlength, List.take_left]
    exact shows_of_arranged layout hcolors halphas

theorem lt_of_mem_block {pixels count k x : Nat} (h : x ∈ block pixels count k) : x < pixels := by
  have hx := List.mem_range'_1.1 h
  omega

theorem lt_of_mem_cellPixels {config : GridConfig} {cell : Point} {q : Nat × Nat}
    (h : q ∈ cellPixels config width height cell) : q.1 < width ∧ q.2 < height := by
  obtain ⟨y, hy, h⟩ := List.mem_flatMap.1 h
  obtain ⟨x, hx, rfl⟩ := List.mem_map.1 h
  exact ⟨lt_of_mem_block hx, lt_of_mem_block hy⟩

/-- The color of a cell depends on the colors alone. -/
theorem Picture.Shows.cellColor?_eq {p q : Picture} (hp : p.Shows width height colors)
    (hq : q.Shows width height colors) (config : GridConfig)
    (palette : Except Error (List Channels)) (cell : Point) :
    p.cellColor? palette config.cols config.rows cell =
      q.cellColor? palette config.cols config.rows cell := by
  have hpixels : (cellPixels config width height cell).map (fun c => p.pixel c.1 c.2) =
      (cellPixels config width height cell).map fun c => q.pixel c.1 c.2 := by
    refine List.map_congr_left fun c hc => ?_
    obtain ⟨hx, hy⟩ := lt_of_mem_cellPixels hc
    obtain ⟨color, hcolor, hpixel⟩ := hp.pixel_eq hx hy
    obtain ⟨color', hcolor', hpixel'⟩ := hq.pixel_eq hx hy
    obtain rfl := Option.some.inj (hcolor.symm.trans hcolor')
    rw [hpixel, hpixel']
  rw [Image.cellColor?_eq, Image.cellColor?_eq, hp.width_eq, hp.height_eq, hq.width_eq,
    hq.height_eq]
  simp only [hpixels]

/-- With a palette that can be used there is one color for each cell, on all boards of the same
sizes and after all pictures of the same colors. -/
theorem exists_colors {entries : List Channels} (h : Palette.Usable entries) (plan : GridConfig)
    (hcolors : colors.length = width * height) :
    ∃ place : Point → Nat, (∀ cell, place cell < entries.length) ∧
      ∀ p : Picture, p.Shows width height colors → ∀ config : GridConfig,
        config.cols = plan.cols → config.rows = plan.rows → ∀ cell,
          p.cellColor? (.ok entries) config.cols config.rows cell = .ok (place cell : Nat) := by
  have halphas : (List.replicate colors.length (0.0 : Float)).length = colors.length :=
    List.length_replicate
  have hshows := shows_of_arranged .rgb hcolors halphas
  choose place hplace hcolor using @exists_cellColor? plan _ h ⟨_, width, height, .rgb⟩
  refine ⟨place, hplace, fun p hp config hcols hrows cell => ?_⟩
  rw [hp.cellColor?_eq hshows, hcols, hrows, hcolor]

end Image

open Image (Picture)

/-! ## Canvases -/

/-- A number for each cell, column by column. -/
def GridConfig.tabulate (config : GridConfig) (k : Point → Int) : List (List Int) :=
  (List.range config.cols).map fun (x : Nat) =>
    (List.range config.rows).map fun (y : Nat) => k ⟨x, y⟩

theorem GridConfig.exists_of_mem_tabulate {config : GridConfig} {k : Point → Int}
    {column : List Int} {n : Int} (hcolumn : column ∈ config.tabulate k) (hn : n ∈ column) :
    ∃ p, n = k p := by
  obtain ⟨x, -, rfl⟩ := List.mem_map.1 hcolumn
  obtain ⟨y, -, rfl⟩ := List.mem_map.1 hn
  exact ⟨_, rfl⟩

/-- What a canvas held does not show after each cell is repainted. -/
theorem Canvas.columns_repaint [Memory] {config : GridConfig} {k : Point → Int}
    (hk : ∀ p, fitsWord (k p) = true) (c : Canvas config) :
    (c.repaint k config.points).columns = config.tabulate k := by
  refine List.map_congr_left fun x hx => List.map_congr_left fun y hy => ?_
  have hcell : config.Contains ⟨x, y⟩ := by
    have := List.mem_range.1 hx
    have := List.mem_range.1 hy
    unfold Metric.Contains
    simp only
    omega
  rw [get_repaint (fun p _ => hk p) c (fun _ => config.mem_points.1) hcell,
    if_pos (config.mem_points.2 hcell)]

namespace Grid

variable [Memory] {config : GridConfig}

theorem ready?_of_fits {g : Grid config} (h : g.initialized = true ∨ config.Fits) :
    ∃ c, g.ready? = .ok c := by
  obtain ⟨_ | c⟩ := g
  · have hfits : config.Fits := h.resolve_left Bool.false_ne_true
    exact ⟨Canvas.blank hfits, dif_pos hfits⟩
  · exact ⟨c, rfl⟩

theorem ready?_of_misfit {g : Grid config} (h : ¬(g.initialized = true ∨ config.Fits)) :
    g.ready? = .error config.misfit := by
  obtain ⟨_ | c⟩ := g
  · exact dif_neg fun hfits => h (.inr hfits)
  · exact absurd (.inl rfl) h

/-- Cells whose colors are known are repainted. -/
theorem runOn_paintCells {color : Point → Except Error Int} {k : Point → Int}
    (hcolor : ∀ p, color p = .ok (k p)) (hk : ∀ p, fitsWord (k p) = true) (cells : List Point)
    (c : Canvas config) :
    (paintCells color cells).runOn ⟨some c⟩ = (.ok (), ⟨some (c.repaint k cells)⟩) := by
  induction cells generalizing c with
  | nil => rfl
  | cons p cells ih =>
    rw [runOn_paintCells_cons (hcolor p) (hk p), ih]
    rfl

/-- A picture that gives each cell a color leaves nothing of a canvas. -/
theorem runOn_rasterize_of_colors {picture : Picture} {palette : Except Error (List Channels)}
    {k : Point → Int}
    (hcolor : ∀ p, picture.cellColor? palette config.cols config.rows p = .ok (k p))
    (hk : ∀ p, fitsWord (k p) = true) {g : Grid config} {c : Canvas config}
    (h : g.ready? = .ok c) :
    (rasterize picture palette).runOn g = (.ok (), ⟨some (c.repaint k config.points)⟩) := by
  rw [runOn_rasterize, h]
  exact runOn_paintCells hcolor hk _ c

end Grid

namespace Board

/-- What comes of an image that can be read, with a palette that can be read. -/
theorem runOn_rasterize_of_read [Memory] {config : GridConfig} {b : Board} {g : Grid config}
    {data side side' layout palette : Json} {picture : Picture} {entries : List Channels}
    (hread : Picture.ofData? data side side' layout = .ok picture)
    (hpalette : Palette.ofJson? palette = .ok entries) (hgrid : b.grid = .exact config g) :
    (rasterize data side side' layout palette).runOn b =
      (((Grid.rasterize picture (.ok entries)).runOn g).1,
        b.withGrid ((Grid.rasterize picture (.ok entries)).runOn g).2) := by
  rw [runOn_rasterize, hread, hgrid, ← hpalette]

/-- A board is colored after the colors of the pixels alone. Whichever layout they come in, with
whatever alpha and whatever behind them, all boards of the same sizes end with the same cells, each
of the color of an entry of the palette or background, whatever they held. A board without cells has
to have the memory for them, and each item of the list has to be a sample: else the image is refused
and the board is as it was. Palettes with more entries than a word has colors are left aside. -/
theorem colors_of_content [Memory] (plan : GridConfig) {width height : Nat} (hwidth : 1 ≤ width)
    (hheight : 1 ≤ height) {colors : List Rgb} (hcolors : colors.length = width * height)
    {rows : List (List Json)} (hne : rows ≠ [])
    (hrows : ∀ row ∈ rows, row.length = 3 ∧ ∀ v ∈ row, ∃ x, v.sample? = .ok x)
    (hplaces : rows.length ≤ Nat.pow 2 63) :
    ∃ cells : List (List Int),
      (∀ column ∈ cells, ∀ k ∈ column, k = background ∨ 0 ≤ k ∧ k < rows.length) ∧
      ∀ b : Board, ∀ config, ∀ g : Grid config, ∀ layout : PixelLayout, ∀ items,
        b.grid = .exact config g → config.cols = plan.cols → config.rows = plan.rows →
        let image := rasterize (.arr items) (.int width) (.int height)
          (.str (Text.ofString layout.name)) (.arr (rows.map .arr))
        (layout.Spells colors items →
          ((g.initialized = true ∨ config.Fits) → ∃ c : Canvas config,
            image.runOn b = (.ok (), b.withGrid ⟨some c⟩) ∧ c.columns = cells) ∧
          (¬(g.initialized = true ∨ config.Fits) → image.runOn b = (.error config.misfit, b))) ∧
        ∀ e, (∀ v ∈ items, v.extents? = .ok []) → items.mapM Json.sample? = .error e →
          image.runOn b = (.error e, b) := by
  obtain ⟨entries, hpalette, hlength⟩ := Palette.exists_ofJson? hne hrows
  obtain ⟨place, hplace, hcolor⟩ :=
    Image.exists_colors (Palette.usable_of_ofJson? hpalette) plan hcolors
  have hwords : ∀ p, fitsWord (place p : Nat) = true := by
    intro p
    have := hplace p
    have hsize : Nat.pow 2 63 = 2 ^ 63 := rfl
    rw [fitsWord_iff]
    omega
  refine ⟨plan.tabulate fun p => (place p : Nat), ?_, ?_⟩
  · intro column hcolumn k hk
    obtain ⟨p, rfl⟩ := GridConfig.exists_of_mem_tabulate hcolumn hk
    have := hplace p
    exact .inr (by omega)
  · intro b config g layout items hgrid hcols hrows
    refine ⟨fun hspells => ?_, fun e hitems hsamples => ?_⟩
    · obtain ⟨picture, hread, hshows⟩ := Image.exists_shows hwidth hheight hcolors hspells
      rw [runOn_rasterize_of_read hread hpalette hgrid]
      constructor
      · intro hfits
        obtain ⟨c, hready⟩ := Grid.ready?_of_fits hfits
        rw [Grid.runOn_rasterize_of_colors (hcolor picture hshows config hcols hrows) hwords hready]
        refine ⟨_, rfl, ?_⟩
        rw [Canvas.columns_repaint hwords, GridConfig.tabulate, hcols, hrows]
        rfl
      · intro hmisfit
        rw [Grid.runOn_rasterize, Grid.ready?_of_misfit hmisfit,
          (withGrid_eq_self_iff hgrid).2 rfl]
    · rw [runOn_rasterize, Image.ofData?_of_error layout hwidth hheight hitems hsamples]

section Strip

open Grid (strip spot)

/-- The strip with its ends joined. -/
def band : GridConfig := ⟨{ strip with looping := true }, false⟩

/-- A list of numbers. -/
def listing (values : List Float) : Json := .arr (values.map .float)

/-- Black and white. -/
def contrast : Json := .arr [listing [0.0, 0.0, 0.0], listing [255.0, 255.0, 255.0]]

/-- A red pixel and a blue one color a painted strip and a band without cells alike, in one layout
before a sample that is no number, and in another with some alphas. -/
theorem colors_of_content_red_blue :
    ∃ c : Canvas ⟨strip, false⟩, ∃ c' : Canvas band,
      (rasterize (listing [255.0, 0.0, 0.0, 0.0, 0.0, 255.0, Binary64.notANumber]) (.int 2) (.int 1)
        (.str (Text.ofString "RGB")) contrast).runOn (stripBoard (some spot)) =
          (.ok (), stripBoard (some c)) ∧
      (rasterize (listing [0.0, 0.0, 255.0, 7.0, 255.0, 0.0, 0.0, 9.0]) (.int 2) (.int 1)
        (.str (Text.ofString "ABGR")) contrast).runOn (ofGrid .null .null ⟨band, .empty⟩) =
          (.ok (), ofGrid .null .null ⟨band, ⟨some c'⟩⟩) ∧
      c.columns = c'.columns := by
  have hsamples (values : List Float) : ∀ v ∈ values.map Json.float, ∃ x, v.sample? = .ok x := by
    intro v hv
    obtain ⟨x, -, rfl⟩ := List.mem_map.1 hv
    exact ⟨x, rfl⟩
  obtain ⟨cells, -, hcells⟩ := @colors_of_content _ ⟨strip, false⟩ 2 1 (by decide) (by decide)
    [⟨255.0, 0.0, 0.0⟩, ⟨0.0, 0.0, 255.0⟩] rfl
    [[0.0, 0.0, 0.0].map .float, [255.0, 255.0, 255.0].map .float] (List.cons_ne_nil _ _)
    (List.forall_mem_cons.2 ⟨⟨rfl, hsamples _⟩, List.forall_mem_singleton.2 ⟨rfl, hsamples _⟩⟩)
    (by decide)
  obtain ⟨c, hc, hcolumns⟩ := ((hcells (stripBoard (some spot)) _ _ .rgb
    ([255.0, 0.0, 0.0, 0.0, 0.0, 255.0, Binary64.notANumber].map .float) rfl rfl rfl).1
    ⟨[0.0, 0.0], [Binary64.notANumber], rfl, rfl⟩).1 (.inl rfl)
  obtain ⟨c', hc', hcolumns'⟩ := ((hcells (ofGrid .null .null ⟨band, .empty⟩) _ _ .abgr
    ([0.0, 0.0, 255.0, 7.0, 255.0, 0.0, 0.0, 9.0].map .float) rfl rfl rfl).1
    ⟨[7.0, 9.0], [], rfl, rfl⟩).1 (.inr (by decide))
  exact ⟨c, c', hc, hc', hcolumns.trans hcolumns'.symm⟩

end Strip

section Dot

/-- A closed board of one column and one row. -/
def dot : GridConfig := ⟨⟨1, 1, Nat.one_pos, Nat.one_pos, false⟩, false⟩

/-- A closed board of more cells than there is memory for. -/
def endlessRow : GridConfig := ⟨⟨Nat.pow 2 53, 1, by decide, Nat.one_pos, false⟩, false⟩

/-- An integer that is too large for binary64. -/
def tooLarge : Int := (Nat.pow 2 1024 : Nat)

/-- Colors a board after one pixel, with the standard palette. -/
def stamp (layout : PixelLayout) (samples : List Int) : Procedure Board Unit :=
  rasterize (.arr (samples.map .int)) (.int 1) (.int 1) (.str (Text.ofString layout.name))
    Palette.standard

/-- The board of one cell, which is not painted. -/
def dotBoard : Board := ofGrid .null .null ⟨dot, ⟨some (Canvas.blank (by decide))⟩⟩

/-- The color of the cell after a pixel. -/
def stamped? (layout : PixelLayout) (samples : List Int) : Option Int :=
  match (stamp layout samples).runOn dotBoard with
  | (.ok _, b) => b.sheet?.map fun sheet => sheet.2.get ⟨0, 0⟩
  | _ => none

/-- The color of a pixel does not tell what comes of it: a number behind it that is too large for
binary64, which shows nothing, refuses it, and so does a board that has no memory for cells. -/
theorem content_is_not_all :
    stamped? .rgb [255, 0, 0] = some 6 ∧
      (stamp .rgb [255, 0, 0, tooLarge]).runOn dotBoard = (.error .overflow, dotBoard) ∧
      (stamp .rgb [255, 0, 0]).runOn (ofGrid .null .null ⟨endlessRow, .empty⟩) =
        (.error .outOfMemory, ofGrid .null .null ⟨endlessRow, .empty⟩) := by
  refine ⟨by decide +kernel, ?_, ?_⟩
  · have hnone : Binary64.ofInt? tooLarge = none :=
      Option.isNone_iff_eq_none.1 (by decide +kernel)
    have hsample : Json.sample? (.int tooLarge) = .error .overflow := by
      show Json.rounded? tooLarge = _
      rw [Json.rounded?, hnone]
    have hsamples : ([255, 0, 0, tooLarge].map Json.int).mapM Json.sample? = .error .overflow := by
      simp only [List.map_cons, List.map_nil, List.mapM_cons, hsample]
      rfl
    have hitems : ∀ v ∈ [255, 0, 0, tooLarge].map Json.int, v.extents? = .ok [] := by
      intro v hv
      obtain ⟨n, -, rfl⟩ := List.mem_map.1 hv
      rfl
    have hread : Picture.ofData? (.arr ([255, 0, 0, tooLarge].map .int)) (.int 1) (.int 1)
        (.str (Text.ofString PixelLayout.rgb.name)) = .error .overflow :=
      Image.ofData?_of_error .rgb (Nat.le_refl 1) (Nat.le_refl 1) hitems hsamples
    unfold stamp
    rw [runOn_rasterize, hread]
  · rfl

end Dot

end Board

end Turmite
