import Turmite.Board
import Turmite.Proofs.FileStore
import Turmite.Proofs.GridInvariant
import Turmite.Proofs.RuleTables

/-!
# Grids read from their files

The table of a canvas is a nested list of its colors, column by column. It goes through the text of
a document unchanged, as well as through an array in a file, and what is read has the shape of the
grid and its words (`Grid.readTable?_contentOf`). So a board without negative colors that is saved
is the board that is loaded, but for what the caller decides and what an array does not keep
(`Board.file_reads_back`).
-/

namespace Turmite

namespace Json

/-! ## Tables of integers -/

/-- The nested list of columns of integers. -/
def ofColumns (columns : List (List Int)) : Json :=
  .arr (columns.map fun column => .arr (column.map .int))

variable {columns : List (List Int)}

theorem leavesOf_eq_flatMap (items : List Json) : leavesOf items = items.flatMap leaves := by
  induction items with
  | nil => rfl
  | cons v items ih => rw [leavesOf, ih, List.flatMap_cons]

theorem leavesOf_ints (ns : List Int) : leavesOf (ns.map .int) = ns.map .int := by
  rw [leavesOf_eq_flatMap, List.flatMap_map]
  exact List.flatMap_pure_eq_map _ _

theorem leaves_ofColumns (columns : List (List Int)) :
    (ofColumns columns).leaves = columns.flatten.map .int := by
  rw [ofColumns, leaves, leavesOf_eq_flatMap, List.flatMap_map]
  simp only [leaves, leavesOf_ints]
  rw [List.flatMap_def, List.map_flatten]

theorem extentsOf?_map {α : Type} {f : α → Json} {shape : List Nat} {l : List α}
    (h : ∀ a ∈ l, (f a).extents? = .ok shape) :
    extentsOf? (l.map f) = .ok (List.replicate l.length shape) := by
  induction l with
  | nil => rfl
  | cons a l ih =>
    obtain ⟨ha, hl⟩ := List.forall_mem_cons.1 h
    rw [List.map_cons, extentsOf?, ha, ih hl]
    rfl

theorem commonShape?_replicate {count : Nat} (h : 0 < count) (shape : List Nat) :
    commonShape? (List.replicate count shape) = .ok shape := by
  obtain ⟨count, rfl⟩ := Nat.exists_eq_add_one_of_ne_zero h.ne'
  rw [List.replicate_succ, commonShape?, if_pos]
  simp

/-- The extents of a list of items that have one shape. -/
theorem extents?_map {α : Type} {f : α → Json} {shape : List Nat} {l : List α} (hne : 0 < l.length)
    (h : ∀ a ∈ l, (f a).extents? = .ok shape) :
    (arr (l.map f)).extents? = .ok (l.length :: shape) := by
  rw [extents?, extentsOf?_map h]
  show (do pure ((l.map f).length :: (← commonShape? (List.replicate l.length shape)))) = _
  rw [commonShape?_replicate hne, List.length_map]
  rfl

theorem shape?_ofColumns {cols rows : Nat} (hcols : columns.length = cols)
    (hrows : ∀ column ∈ columns, column.length = rows) (hc : 0 < cols) (hr : 0 < rows) :
    (ofColumns columns).shape? = .ok [cols, rows] := by
  have hcolumn : ∀ column ∈ columns, (arr (column.map .int)).extents? = .ok [rows] := by
    intro column hcolumn
    have hlength := hrows column hcolumn
    rw [extents?_map (by omega) fun n _ => rfl, hlength]
  unfold shape? ofColumns
  rw [extents?_map (by omega) hcolumn, hcols]
  rfl

theorem reread_ofColumns (columns : List (List Int)) :
    (ofColumns columns).reread = ofColumns columns := by
  have hcolumn (column : List Int) : (arr (column.map .int)).reread = arr (column.map .int) := by
    rw [reread, rereadItems_eq_map, List.map_map]
    rfl
  rw [ofColumns, reread, rereadItems_eq_map, List.map_map]
  simp only [Function.comp_def, hcolumn]

theorem depth_ofColumns_le (columns : List (List Int)) : (ofColumns columns).depth ≤ 2 := by
  refine Nat.succ_le_succ (itemDepth_le fun v hv => ?_)
  obtain ⟨column, -, rfl⟩ := List.mem_map.1 hv
  refine Nat.succ_le_succ (itemDepth_le fun v hv => ?_)
  obtain ⟨n, -, rfl⟩ := List.mem_map.1 hv
  exact Nat.le_refl 0

theorem not_mem_texts_ofColumns (columns : List (List Int)) (t : Text) :
    t ∉ (ofColumns columns).texts := by
  intro ht
  obtain ⟨v, hv, ht⟩ := mem_itemTexts.1 ht
  obtain ⟨column, -, rfl⟩ := List.mem_map.1 hv
  obtain ⟨v, hv, ht⟩ := mem_itemTexts.1 ht
  obtain ⟨n, -, rfl⟩ := List.mem_map.1 hv
  cases ht

theorem mem_integers_ofColumns {n : Int} :
    n ∈ (ofColumns columns).integers ↔ n ∈ columns.flatten := by
  have hcolumn (column : List Int) : n ∈ (arr (column.map .int)).integers ↔ n ∈ column := by
    rw [integers, mem_itemIntegers]
    simp [integers]
  rw [ofColumns, integers, mem_itemIntegers]
  simp [hcolumn]

/-! ## Words -/

theorem word?_int {n : Int} (h : fitsWord n = true) : word? (.int n) = .ok n := by
  rw [word?, wordOf?, if_pos h]

theorem wrappedWord_int {n : Int} (h : fitsWord n = true) : wrappedWord (.int n) = n := by
  have hbounds := fitsWord_iff.1 h
  have hsize : UInt64.size = 2 ^ 64 := rfl
  unfold wrappedWord
  rw [hsize]
  exact Int.bmod_eq_of_le (by omega) (by omega)

theorem isStorable_int {n : Int} (h : fitsWord n = true) : isStorable (.int n) = true := by
  have hbounds := fitsWord_iff.1 h
  have hmin : Int64.minValue.toInt = -2 ^ 63 := by decide
  have hsize : UInt64.size = 2 ^ 64 := rfl
  unfold isStorable
  rw [Bool.and_eq_true, decide_eq_true_eq, decide_eq_true_eq, hmin, hsize]
  omega

end Json

namespace WordArray

variable {columns : List (List Int)} {cols rows : Nat}

/-- The array of columns of words. -/
theorem ofJson?_ofColumns (hcols : columns.length = cols)
    (hrows : ∀ column ∈ columns, column.length = rows) (hc : 0 < cols) (hr : 0 < rows)
    (hwords : ∀ n ∈ columns.flatten, fitsWord n = true) :
    ofJson? (.ofColumns columns) = .ok ⟨[cols, rows], columns.flatten⟩ := by
  have hmap : (columns.flatten.map Json.int).mapM Json.word? = .ok (columns.flatten.map id) :=
    mapM_map_eq_ok fun n hn => Json.word?_int (hwords n hn)
  rw [List.map_id] at hmap
  unfold ofJson?
  rw [Json.shape?_ofColumns hcols hrows hc hr, Json.leaves_ofColumns, hmap]
  rfl

/-- Words in a file are read as they are. -/
theorem storedWords?_ints {words : List Int} (hwords : ∀ n ∈ words, fitsWord n = true) :
    storedWords? (words.map .int) = .ok words := by
  have hstorable : (words.map Json.int).all Json.isStorable = true := by
    rw [List.all_map, List.all_eq_true]
    exact fun n hn => Json.isStorable_int (hwords n hn)
  have htext : (words.map Json.int).any Json.isText = false := by simp [Json.isText]
  have hfloat : (words.map Json.int).any Json.isFloat = false := by simp [Json.isFloat]
  have hmap : (words.map Json.int).map Json.wrappedWord = words := by
    rw [List.map_map]
    exact (List.map_congr_left fun n hn => Json.wrappedWord_int (hwords n hn)).trans words.map_id
  unfold storedWords?
  rw [hstorable, htext, hfloat, hmap]
  rfl

theorem ofStored?_ofColumns (hcols : columns.length = cols)
    (hrows : ∀ column ∈ columns, column.length = rows) (hc : 0 < cols) (hr : 0 < rows)
    (hwords : ∀ n ∈ columns.flatten, fitsWord n = true) :
    ofStored? (.ofColumns columns) = .ok ⟨[cols, rows], columns.flatten⟩ := by
  unfold ofStored?
  rw [Json.shape?_ofColumns hcols hrows hc hr, Json.leaves_ofColumns]
  show (do pure (⟨_, ← storedWords? _⟩ : WordArray)) = _
  rw [storedWords?_ints hwords]
  rfl

end WordArray

/-! ## Canvases -/

/-- The cells of a table, counted column by column. -/
theorem flatMap_range_range (cols rows : Nat) :
    ((List.range cols).flatMap fun x => (List.range rows).map fun y => x * rows + y) =
      List.range (cols * rows) := by
  induction cols with
  | zero => simp
  | succ cols ih =>
    rw [List.range_succ, List.flatMap_append, ih, List.flatMap_singleton, Nat.succ_mul,
      List.range_add]

namespace Canvas

variable [Memory] {config : GridConfig}

/-- The colors column by column are the words of the canvas. -/
theorem flatten_columns (c : Canvas config) :
    c.columns.flatten = c.cells.toList.map Int64.toInt := by
  -- The cell in column `x` and row `y` has the place `x * rows + y` by the definition of `index`.
  have hplaces : c.columns.flatten = (List.range (config.cols * config.rows)).map fun n =>
      ((c.cells[n]?).map Int64.toInt).getD background := by
    rw [← flatMap_range_range, List.map_flatMap]
    simp only [List.map_map]
    rfl
  rw [hplaces]
  refine List.ext_getElem (by simp) fun n hn _ => ?_
  have hn : n < config.cols * config.rows := by simpa using hn
  simp [hn]

theorem fitsWord_of_mem_columns {c : Canvas config} {n : Int} (h : n ∈ c.columns.flatten) :
    fitsWord n = true := by
  obtain ⟨p, rfl⟩ := exists_get_eq_of_mem_columns h
  exact c.fitsWord_get p

end Canvas

/-- The configuration of a grid of the same size that is not filled when it is first used. -/
def GridConfig.reloaded (config : GridConfig) (looping : Bool) : GridConfig :=
  { config with looping, lazyInit := false }

/-- The same cells on a grid that loops or not. -/
def Canvas.reloaded [Memory] {config : GridConfig} (c : Canvas config) (looping : Bool) :
    Canvas (config.reloaded looping) :=
  ⟨c.cells, c.fits⟩

namespace Grid

variable [Memory] {config : GridConfig}

/-- The array of the colors of a canvas. -/
def wordArray (c : Canvas config) : WordArray := ⟨[config.cols, config.rows], c.columns.flatten⟩

/-- An array of the colors of a canvas is the canvas. -/
theorem canvas?_wordArray (c : Canvas config) : (wordArray c).canvas? config = .ok c := by
  have hlength : (wordArray c).words.length = config.cols * config.rows := by
    rw [wordArray, Canvas.flatten_columns, List.length_map, Vector.length_toList]
  unfold WordArray.canvas?
  rw [dif_pos ⟨rfl, hlength⟩, dif_pos c.fits]
  refine congrArg Except.ok (Canvas.ext (Vector.ext fun n hn => ?_))
  have hword : (wordArray c).words = c.cells.toList.map Int64.toInt := c.flatten_columns
  simp [hword]

/-- The grid around the colors of a canvas holds its cells. -/
theorem ofTable?_wordArray {c : Canvas config} (hc : c.Nonneg) (looping : Bool) :
    ofTable? (wordArray c) looping =
      .ok ⟨config.reloaded looping, ⟨some (c.reloaded looping)⟩⟩ := by
  have hsigns : (wordArray c).words.all (0 ≤ ·) = true := by
    rw [List.all_eq_true]
    intro n hn
    obtain ⟨p, rfl⟩ := Canvas.exists_get_eq_of_mem_columns hn
    exact decide_eq_true (hc p)
  have harray :
      ofArray? (config.reloaded looping) (wordArray c) = .ok ⟨some (c.reloaded looping)⟩ :=
    bind_eq_ok.2 ⟨_, canvas?_wordArray (c.reloaded looping), rfl⟩
  exact bind_eq_ok.2 ⟨(), ensure_eq_ok.2 hsigns,
    bind_eq_ok.2 ⟨_, (config.reloaded looping).ofSizes?_self, bind_eq_ok.2 ⟨_, harray, rfl⟩⟩⟩

/-! ## Documents -/

theorem reread_documentOf (looping : Bool) (c : Canvas config) :
    (documentOf (.bool looping) c).reread = documentOf (.bool looping) c := by
  have hkeys : List.Nodup [Text.ofString "looping", Text.ofString "cells"] := by decide
  have htable : (table c).reread = table c := Json.reread_ofColumns c.columns
  unfold documentOf
  rw [Json.reread, Json.rereadMembers, Json.rereadMembers, Json.rereadMembers, htable]
  exact congrArg Json.obj (Json.Members.ofList_of_nodup hkeys)

theorem within_documentOf (looping : Bool) (c : Canvas config) :
    (documentOf (.bool looping) c).Within .standard := by
  refine ⟨fun n hn => ?_, fun most hmost => ?_⟩
  · obtain ⟨m, hm, hn⟩ := Json.mem_memberIntegers.1 hn
    simp only [List.mem_cons, List.not_mem_nil, or_false] at hm
    rcases hm with rfl | rfl
    · cases hn
    · have hword := Canvas.fitsWord_of_mem_columns (Json.mem_integers_ofColumns.1 hn)
      exact Program.isWritable_iff.2 (Program.natAbs_lt_firstTooLong hword)
  · obtain rfl := Option.some.inj hmost
    have hdepth : (documentOf (.bool looping) c).depth ≤ 3 := by
      refine Nat.succ_le_succ (Json.memberDepth_le fun m hm => ?_)
      simp only [List.mem_cons, List.not_mem_nil, or_false] at hm
      rcases hm with rfl | rfl
      · exact Nat.zero_le 2
      · exact Json.depth_ofColumns_le c.columns
    exact Nat.le_trans hdepth (by decide)

theorem isEncodable_texts_documentOf (looping : Bool) (c : Canvas config) :
    ∀ t ∈ (documentOf (.bool looping) c).texts, t.IsEncodable := by
  intro t ht
  obtain ⟨m, hm, ht⟩ := Json.mem_memberTexts.1 ht
  simp only [List.mem_cons, List.not_mem_nil, or_false] at hm
  rcases hm with rfl | rfl
  · rcases ht with rfl | ht
    · exact Text.isEncodable_ofString _
    · cases ht
  · rcases ht with rfl | ht
    · exact Text.isEncodable_ofString _
    · exact absurd ht (Json.not_mem_texts_ofColumns c.columns t)

/-- The document of a canvas is read from its text. -/
theorem parse?_documentOf (looping : Bool) (c : Canvas config) :
    Json.parse? .standard (documentOf (.bool looping) c).line.scalars =
      .ok (documentOf (.bool looping) c) := by
  rw [Json.line, Json.parse?_write Json.Layout.isBlank_line (isEncodable_texts_documentOf looping c)
    (within_documentOf looping c), reread_documentOf]

/-! ## Files -/

/-- What a file keeps of a canvas is its array, and whether the grid loops is kept by documents. -/
theorem readTable?_contentOf {files : Files} {path : Path} {looping : Bool} {c : Canvas config}
    (h : files.Holds path (contentOf (.bool looping) path c)) :
    readTable? files path = .ok (wordArray c, isArrayPath path || looping) := by
  have hwords : ∀ n ∈ c.columns.flatten, fitsWord n = true :=
    fun _ => Canvas.fitsWord_of_mem_columns
  have hrows : ∀ column ∈ c.columns, column.length = config.rows :=
    fun _ => Canvas.length_of_mem_columns
  unfold contentOf at h
  unfold readTable?
  by_cases harray : isArrayPath path = true
  · rw [if_pos harray] at h
    rw [if_pos harray, harray]
    have hread : readArray? (.array (table c)) = .ok (wordArray c) :=
      WordArray.ofStored?_ofColumns c.length_columns hrows config.cols_pos config.rows_pos hwords
    exact bind_eq_ok.2 ⟨_, h.read?, bind_eq_ok.2 ⟨_, hread, rfl⟩⟩
  · rw [if_neg harray] at h
    rw [if_neg harray, Bool.eq_false_iff.2 harray]
    have hread : WordArray.ofJson? (table c) = .ok (wordArray c) :=
      WordArray.ofJson?_ofColumns c.length_columns hrows config.cols_pos config.rows_pos hwords
    have hdocument : files.readJson? path = .ok (documentOf (.bool looping) c) := by
      refine bind_eq_ok.2 ⟨_, h.readText?, ?_⟩
      exact mapError_eq_ok.2 (parse?_documentOf looping c)
    exact bind_eq_ok.2 ⟨_, hdocument, bind_eq_ok.2 ⟨(table c, looping), rfl,
      bind_eq_ok.2 ⟨_, hread, rfl⟩⟩⟩

theorem load?_of_holds {files : Files} {path : Path} {kept : Bool} {c : Canvas config}
    (hc : c.Nonneg) (h : files.Holds path (contentOf (.bool kept) path c)) (looping : Option Bool) :
    let loops := looping.getD (isArrayPath path || kept)
    load? files path looping = .ok ⟨config.reloaded loops, ⟨some (c.reloaded loops)⟩⟩ :=
  bind_eq_ok.2 ⟨_, readTable?_contentOf h, ofTable?_wordArray hc _⟩

end Grid

/-! ## Boards -/

namespace Board

section

variable [Memory] {config : GridConfig} {c : Canvas config}

theorem load?_of_holds {files : Files} {path : Path} {kept : Bool} (hc : c.Nonneg)
    (h : files.Holds path (Grid.contentOf (.bool kept) path c)) (looping : Option Bool) :
    let loops := looping.getD (Grid.isArrayPath path || kept)
    load? files path (looping.map .bool) = .ok (ofGrid (.bool loops) (.bool false)
      ⟨config.reloaded loops, ⟨some (c.reloaded loops)⟩⟩) := by
  intro loops
  have hloops : (looping.map Json.bool).getD (.bool (Grid.isArrayPath path || kept)) =
      .bool loops := by
    cases looping <;> rfl
  refine bind_eq_ok.2 ⟨_, Grid.readTable?_contentOf h, ?_⟩
  simp only [hloops]
  exact bind_eq_ok.2 ⟨_, Grid.ofTable?_wordArray hc loops, rfl⟩

/-- Saving changes the files alone. -/
theorem runOn_save (looping lazyInit : Json) (c : Canvas config) (path : Path) (f : Files) :
    let b := ofGrid looping lazyInit ⟨config, ⟨some c⟩⟩
    (save path).runOn (b, f) =
      match (do Files.makeDirectory path.parent
                Files.write path (Grid.contentOf looping path c)).runOn f with
      | (result, g) => (result, b, g) := by
  intro b
  unfold save
  rw [Procedure.runOn_bind, Procedure.runOn_within, Procedure.runOn_bind]
  rcases (Files.makeDirectory path.parent).runOn f with ⟨e | _, made⟩
  · rfl
  · rfl

/-- Saving a board without negative colors writes what it is loaded from, unless its path takes no
file. The board that is loaded has the same sizes and cells; it loops as the caller says or, if the
caller says nothing, as the board did, but always if it comes from an array. -/
theorem file_reads_back (hc : c.Nonneg) (lazyInit : Json) (path : Path) (f : Files) :
    let b := ofGrid (.bool config.looping) lazyInit ⟨config, ⟨some c⟩⟩
    (∃ e g, (save path).runOn (b, f) = (.error e, b, g) ∧ f.Refuses Files.write path e) ∨
      ∃ g, (save path).runOn (b, f) = (.ok (), b, g) ∧ ∀ looping : Option Bool,
        let loops := looping.getD (Grid.isArrayPath path || config.looping)
        let loaded : (config : GridConfig) × Grid config :=
          ⟨config.reloaded loops, ⟨some (c.reloaded loops)⟩⟩
        Grid.load? g path looping = .ok loaded ∧
          load? g path (looping.map .bool) = .ok (ofGrid (.bool loops) (.bool false) loaded) := by
  intro b
  rw [runOn_save]
  rcases Files.runOn_save_cases f path (Grid.contentOf (.bool config.looping) path c) with
    ⟨e, made, hrun, -, hrefuses⟩ | ⟨made, hrun, -, hholds⟩
  · rw [hrun]
    exact .inl ⟨e, made, rfl, hrefuses⟩
  · rw [hrun]
    exact .inr ⟨made, rfl, fun looping =>
      ⟨Grid.load?_of_holds hc hholds looping, load?_of_holds hc hholds looping⟩⟩

end

/-- A bounded grid of one column. -/
def strait : GridConfig := ⟨⟨1, 2, Nat.one_pos, Nat.two_pos, false⟩, true⟩

/-- A canvas with the greatest color. -/
def straitCanvas : Canvas strait := (Canvas.filled 4 (by decide)).set ⟨0, 1⟩ (2 ^ 63 - 1)

theorem file_reads_back_strait :
    let b := ofGrid (.bool false) (.bool true) ⟨strait, ⟨some straitCanvas⟩⟩
    let loaded (looping : Bool) := ofGrid (.bool looping) (.bool false)
      ⟨strait.reloaded looping, ⟨some (straitCanvas.reloaded looping)⟩⟩
    straitCanvas.Nonneg ∧
      (∃ g, (save "g.json").runOn (b, .empty []) = (.ok (), b, g) ∧
        load? g "g.json" none = .ok (loaded false) ∧
        load? g "g.json" (some (.bool true)) = .ok (loaded true)) ∧
      ∃ g, (save "g.npy").runOn (b, .empty []) = (.ok (), b, g) ∧
        load? g "g.npy" none = .ok (loaded true) ∧
        load? g "g.npy" (some (.bool false)) = .ok (loaded false) := by
  intro b loaded
  have hc : straitCanvas.Nonneg :=
    (Canvas.nonneg_filled (by decide) (by decide) _).set _ (by decide) (by decide)
  have hsaved (path : Path) (hfree : ∀ e, ¬(Files.empty []).Refuses Files.write path e) :=
    (file_reads_back hc (.bool true) path (.empty [])).resolve_left fun ⟨e, _, _, h⟩ => hfree e h
  obtain ⟨g, hsave, hload⟩ := hsaved "g.json" fun _ h => nomatch h (.text [])
  obtain ⟨g', hsave', hload'⟩ := hsaved "g.npy" fun _ h => nomatch h (.text [])
  exact ⟨hc, ⟨g, hsave, (hload none).2, (hload (some true)).2⟩,
    g', hsave', (hload' none).2, (hload' (some false)).2⟩

end Board
end Turmite
