import Mathlib.Algebra.Group.Int.Defs
import Turmite.Board
import Turmite.Proofs.Correspondence

/-!
# Boards filled when first used

A board that is filled with background when it is first used cannot be told from one that was made
blank. The two correspond (`Board.Alike`) as long as the first waits and the second is blank, and
then because they are the same. Whatever is asked of them, they give the same answer or the same
error and still correspond (`Board.Request.respects_perform`), so this holds of any number of
requests (`Board.lazy_answers_as_blank`).
-/

namespace Turmite

open Procedure

/-! ## Grids -/

namespace Grid

variable [Memory] {config : GridConfig} {α : Type}

/-- The first grid waits for its first use and the second is blank, or they are the same. -/
inductive Alike : Grid config → Grid config → Prop
  | waiting (fits : config.Fits) : Alike empty ⟨some (.blank fits)⟩
  | same (g : Grid config) : Alike g g

theorem blank?_of_fits (fits : config.Fits) : Canvas.blank? config = .ok (.blank fits) :=
  dif_pos fits

theorem runOn_init (fits : config.Fits) (g : Grid config) :
    (init : Procedure (Grid config) _).runOn g = (.ok (.blank fits), ⟨some (.blank fits)⟩) := by
  unfold init
  rw [blank?_of_fits fits]
  rfl

/-- Only a grid that waits has to be compared with a blank one. -/
theorem respects_of_runOn_eq {p : Procedure (Grid config) α}
    (h : ∀ fits, p.runOn empty = p.runOn ⟨some (.blank fits)⟩) : Respects Alike p := by
  intro g g' halike
  cases halike with
  | waiting fits =>
    rw [h fits]
    exact ⟨rfl, .same _⟩
  | same => exact ⟨rfl, .same _⟩

theorem respects_init : Respects Alike (init : Procedure (Grid config) _) :=
  respects_of_runOn_eq fun fits => by rw [runOn_init fits, runOn_init fits]

theorem Alike.blankCopy_eq {g h : Grid config} (halike : Alike g h) :
    g.blankCopy = h.blankCopy := by
  cases halike with
  | waiting fits =>
    show create? config = .ok ⟨some (.blank fits)⟩
    unfold create?
    rw [blank?_of_fits fits]
    rfl
  | same => rfl

/-- An image brings its own cells to a grid that waits, whatever the configuration says. -/
theorem respects_rasterize (picture : Image.Picture) (palette : Except Error (List Channels)) :
    Respects Alike (rasterize picture palette : Procedure (Grid config) _) := by
  apply respects_of_runOn_eq
  intro fits
  unfold rasterize
  rw [runOn_bind, runOn_bind, runOn_get, runOn_get]
  show ((init : Procedure (Grid config) _) >>= fun _ => paintCells _ config.points).runOn empty = _
  rw [runOn_bind_of_eq_ok (runOn_init fits empty)]
  rfl

section

variable (hlazy : config.lazyInit = true)

include hlazy

theorem respects_requireCells : Respects Alike (requireCells : Procedure (Grid config) _) := by
  apply respects_of_runOn_eq
  intro fits
  have hempty : (requireCells : Procedure (Grid config) _).runOn empty = init.runOn empty := by
    show (if config.lazyInit then init else throw .uninitialized :
      Procedure (Grid config) _).runOn empty = _
    rw [if_pos hlazy]
  rw [hempty, runOn_init fits]
  rfl

theorem respects_colorAt (p : Point) : Respects Alike (colorAt p : Procedure (Grid config) _) :=
  respects_bind (respects_requireCells hlazy) fun _ => respects_pure _

theorem respects_paint (p : Point) (color : Int) :
    Respects Alike (paint p color : Procedure (Grid config) _) := by
  unfold paint
  apply respects_bind (respects_ofExcept _)
  intro _
  apply respects_bind (respects_requireCells hlazy)
  intro c
  apply respects_bind (respects_require _ _)
  intro _
  exact respects_bind (respects_set (.same _)) fun _ => respects_pure _

theorem respects_fill (p q : Point) (color : Int) :
    Respects Alike (fill p q color : Procedure (Grid config) _) := by
  unfold fill
  apply respects_bind (respects_ofExcept _)
  intro _
  apply respects_bind (respects_requireCells hlazy)
  intro c
  exact respects_bind (respects_require _ _) fun _ => respects_set (.same _)

theorem respects_dirtyPoints : Respects Alike (dirtyPoints : Procedure (Grid config) _) :=
  respects_bind (respects_requireCells hlazy) fun _ => respects_pure _

theorem respects_compileTour (tour : List Stop) (heading : Direction) (offset : Int)
    (stopAfterDone : Bool) :
    Respects Alike (compileTour tour heading offset stopAfterDone : Procedure (Grid config) _) := by
  unfold compileTour
  -- Everything is checked before the cells are looked at.
  refine respects_bind (respects_require _ _) fun _ => respects_bind (respects_require _ _) fun _ =>
    respects_bind (respects_ofExcept _) fun _ => respects_bind (respects_ofExcept _) fun _ =>
    respects_bind (respects_ofExcept _) fun _ => respects_bind (respects_ofExcept _) fun _ => ?_
  exact respects_bind (respects_requireCells hlazy) fun _ => respects_pure _

end

end Grid

namespace Program

variable [Memory] {config : GridConfig} (hlazy : config.lazyInit = true)

include hlazy

theorem respects_runFrom (p : Program) (limit : Nat) (state : Int) (position : Point)
    (trail : List Point) :
    Respects Grid.Alike (p.runFrom limit state position trail : Procedure (Grid config) _) := by
  induction limit generalizing state position trail with
  | zero =>
    unfold runFrom
    split
    · exact respects_pure _
    · exact respects_pure _
  | succ limit ih =>
    unfold runFrom
    split
    · exact respects_pure _
    · exact respects_bind (respects_ofExcept _) fun _ =>
        respects_bind (Grid.respects_paint hlazy _ _) fun _ => ih _ _ _

theorem respects_replay (p : Program) (start : Point) (startState maxSteps : Int) :
    Respects Grid.Alike (p.replay start startState maxSteps : Procedure (Grid config) _) := by
  unfold replay
  exact respects_bind (respects_require _ _) fun _ => p.respects_runFrom hlazy _ _ _ _

end Program

namespace Bench

variable [Memory] {config : GridConfig} {α : Type}

/-- The grids correspond, and the clocks are the same. -/
def Alike (b b' : Bench config) : Prop := Grid.Alike b.grid b'.grid ∧ b.clock = b'.clock

theorem respects_onGrid {p : Procedure (Grid config) α} (hp : Respects Grid.Alike p) :
    Respects Alike (onGrid p) :=
  respects_within hp (fun _ _ h => h.1) fun _ _ _ _ h halike => ⟨halike, h.2⟩

theorem respects_onClock (p : Procedure Clock α) :
    Respects Alike (onClock p : Procedure (Bench config) α) :=
  respects_within (respects_eq p) (fun _ _ h => h.2) fun _ _ _ _ h hclock => ⟨h.1, hclock⟩

theorem respects_compile (hlazy : config.lazyInit = true) (start finish : Option Stop)
    (heading : Direction) (settings : CompileConfig) :
    Respects Alike (compile start finish heading settings : Procedure (Bench config) _) := by
  unfold compile
  refine respects_bind (respects_ofExcept _) fun _ => respects_bind (respects_ofExcept _) fun _ =>
    respects_bind (respects_ofExcept _) fun _ =>
    respects_bind (respects_onGrid (Grid.respects_dirtyPoints hlazy)) fun _ => ?_
  have hcompile (tour : List Stop) := respects_onGrid
    (Grid.respects_compileTour hlazy tour heading settings.stateOffset settings.stopAfterDone)
  split
  · exact respects_bind (hcompile _) fun _ => respects_pure _
  · exact respects_bind (respects_onClock _) fun _ =>
      respects_bind (hcompile _) fun _ => respects_pure _

end Bench

/-! ## Boards -/

namespace Board

theorem respects_compileFrom {σ : Type} {R : σ → σ → Prop}
    {compile : Nat → Bool → Procedure σ Compiled}
    (h : ∀ offset stops, Respects R (compile offset stops)) (first : Json) (stopAfterDone : Bool) :
    Respects R (compileFrom first stopAfterDone compile) := by
  unfold compileFrom
  apply respects_bind (respects_ofExcept _)
  intro _
  split
  · exact respects_bind (h _ _) fun _ => respects_pure _
  · exact respects_bind (h _ _) fun _ => respects_ofExcept _

section

variable [Memory] {config : GridConfig} {α : Type}

/-- The boards are of a configuration whose grids are filled when they are first used, and their
grids correspond. -/
inductive Alike (config : GridConfig) : Board → Board → Prop
  | exact (hlazy : config.lazyInit = true) (looping lazyInit : Json) {g h : Grid config}
      (halike : Grid.Alike g h) :
      Alike config ⟨looping, lazyInit, .exact config g⟩ ⟨looping, lazyInit, .exact config h⟩

theorem respects_onGrid {exact : (config : GridConfig) → Procedure (Grid config) α}
    {loose : Procedure LooseGrid α}
    (h : config.lazyInit = true → Respects Grid.Alike (exact config)) :
    Respects (Alike config) (onGrid exact loose) := by
  rintro _ _ ⟨hlazy, looping, lazyInit, halike⟩
  obtain ⟨hresult, hgrid⟩ := h hlazy _ _ halike
  exact ⟨hresult, .exact hlazy looping lazyInit hgrid⟩

/-- The boards correspond, and the clocks are the same. -/
def AlikeWithClock (config : GridConfig) (s t : Board × Clock) : Prop :=
  Alike config s.1 t.1 ∧ s.2 = t.2

theorem respects_onBench {exact : (config : GridConfig) → Procedure (Bench config) α}
    {loose : Procedure LooseGrid.Bench α}
    (h : config.lazyInit = true → Respects Bench.Alike (exact config)) :
    Respects (AlikeWithClock config) (onBench exact loose) := by
  rintro ⟨_, clock⟩ ⟨_, _⟩ ⟨⟨hlazy, looping, lazyInit, halike⟩, rfl⟩
  obtain ⟨hresult, hbench⟩ := h hlazy ⟨_, clock⟩ ⟨_, clock⟩ ⟨halike, rfl⟩
  exact ⟨hresult, .exact hlazy looping lazyInit hbench.1, hbench.2⟩

theorem Alike.surface_eq {b b' : Board} (h : Alike config b b') : b.surface = b'.surface := by
  cases h
  rfl

theorem Alike.looping_eq {b b' : Board} (h : Alike config b b') : b.looping = b'.looping := by
  cases h
  rfl

theorem Alike.segments?_eq {b b' : Board} (h : Alike config b b') (tour : List Stop) :
    b.segments? tour = b'.segments? tour := by
  cases h
  unfold segments?
  cases Stop.points? tour with
  | none => rfl
  | some points => rfl

theorem Alike.blankCopy?_eq {b b' : Board} (h : Alike config b b') :
    b.blankCopy? = b'.blankCopy? := by
  cases h with
  | exact hlazy looping lazyInit halike =>
    unfold blankCopy?
    simp only [halike.blankCopy_eq]

theorem respects_init : Respects (Alike config) init :=
  respects_onGrid fun _ => respects_bind Grid.respects_init fun _ => respects_pure _

theorem respects_requireCells : Respects (Alike config) requireCells :=
  respects_onGrid fun hlazy =>
    respects_bind (Grid.respects_requireCells hlazy) fun _ => respects_pure _

/-- What is read of the surface is the same on both boards. -/
theorem respects_surface_bind (read : Surface → Except Error Point) {f : Point → Procedure Board α}
    (hf : ∀ p, Respects (Alike config) (f p)) :
    Respects (Alike config) (do f (← Procedure.ofExcept (read (← get).surface))) := by
  apply respects_get_bind
  · intro b b' h
    rw [h.surface_eq]
  · intro b
    exact respects_bind (respects_ofExcept _) hf

theorem respects_cellOf (p : Point) : Respects (Alike config) (cellOf p) := by
  apply respects_get_bind
  · intro b b' h
    rw [h.surface_eq]
  · intro b
    exact respects_ofExcept _

theorem respects_colorAt (s : Stop) : Respects (Alike config) (colorAt s) := by
  unfold colorAt
  apply respects_bind respects_requireCells
  intro _
  apply respects_bind (respects_ofExcept _)
  intro p
  exact respects_onGrid fun hlazy => Grid.respects_colorAt hlazy p

theorem respects_prepareColor (color : Json) : Respects (Alike config) (prepareColor color) := by
  unfold prepareColor
  apply respects_bind (respects_ofExcept _)
  intro _
  exact respects_bind respects_requireCells fun _ => respects_pure _

theorem respects_paint (s : Stop) (color : Json) : Respects (Alike config) (paint s color) := by
  unfold paint
  refine respects_bind (respects_prepareColor color) fun _ =>
    respects_bind (respects_ofExcept _) fun p => respects_bind (respects_cellOf p) fun cell =>
    respects_bind (respects_ofExcept _) fun word => ?_
  apply respects_bind (respects_onGrid fun hlazy => Grid.respects_paint hlazy cell word)
  intro _
  exact respects_pure _

theorem respects_fill (area : List Json) (color : Json) :
    Respects (Alike config) (fill area color) := by
  unfold fill
  split
  · refine respects_bind (respects_prepareColor color) fun _ =>
      respects_bind (respects_ofExcept _) fun _ => respects_bind (respects_cellOf _) fun p =>
      respects_bind (respects_ofExcept _) fun _ => respects_bind (respects_cellOf _) fun q =>
      respects_bind (respects_ofExcept _) fun word => ?_
    exact respects_onGrid fun hlazy => Grid.respects_fill hlazy p q word
  · exact respects_throw _

theorem respects_rasterize (data width height layout palette : Json) :
    Respects (Alike config) (rasterize data width height layout palette) := by
  unfold rasterize
  apply respects_bind (respects_ofExcept _)
  intro picture
  exact respects_onGrid fun _ => Grid.respects_rasterize picture _

theorem respects_dirtyPoints : Respects (Alike config) dirtyPoints :=
  respects_bind respects_requireCells fun _ => respects_pure _

theorem respects_compileTour (tour : List Stop) (heading : Direction) (first : Json)
    (stopAfterDone : Bool) :
    Respects (Alike config) (compileTour tour heading first stopAfterDone) := by
  unfold compileTour
  apply respects_bind (respects_require _ _)
  intro _
  apply respects_compileFrom
  intro offset stops
  exact respects_onGrid fun hlazy => Grid.respects_compileTour hlazy tour heading offset stops

theorem respects_compile (start finish : Option Stop) (heading : Direction) (first : Json)
    (settings : CompileConfig) :
    Respects (AlikeWithClock config) (compile start finish heading first settings) := by
  apply respects_compileFrom
  intro offset stops
  exact respects_onBench fun hlazy => Bench.respects_compile hlazy start finish heading _

theorem respects_runFrom (p : LooseProgram) (limit : Nat) (state : Json) (position : Point)
    (trail : List Point) : Respects (Alike config) (runFrom p limit state position trail) := by
  induction limit generalizing state position trail with
  | zero =>
    unfold runFrom
    apply respects_bind (respects_ofExcept _)
    intro next
    split
    · exact respects_pure _
    · exact respects_pure _
  | succ limit ih =>
    unfold runFrom
    apply respects_bind (respects_ofExcept _)
    intro next
    split
    · exact respects_pure _
    · apply respects_bind (respects_ofExcept _)
      intro rule
      apply respects_bind (respects_paint _ _)
      intro _
      exact respects_surface_bind (·.step? position rule.move) fun next => ih _ _ _

theorem respects_replay (p : LooseProgram) (start : Stop) (startState maxSteps : Json) :
    Respects (Alike config) (replay p start startState maxSteps) := by
  unfold replay
  refine respects_bind (respects_ofExcept _) fun limit => respects_bind (respects_ofExcept _)
    fun _ => respects_bind (respects_cellOf _) fun cell => ?_
  split
  · next program state _ =>
    apply respects_bind (respects_onGrid fun hlazy => program.respects_replay hlazy cell _ limit)
    intro _
    exact respects_pure _
  · exact respects_runFrom p _ _ _ _

/-- The boards correspond, and the files are the same. -/
def AlikeWithFiles (config : GridConfig) (s t : Board × Files) : Prop :=
  Alike config s.1 t.1 ∧ s.2 = t.2

theorem respects_save (path : Path) : Respects (AlikeWithFiles config) (save path) := by
  have hfiles {β : Type} (p : Procedure Files β) :
      Respects (AlikeWithFiles config) (p.within (·.2) fun files s => (s.1, files)) :=
    respects_within (respects_eq p) (fun _ _ h => h.2) fun _ _ _ _ h heq => ⟨h.1, heq⟩
  unfold save
  apply respects_bind (hfiles _)
  intro _
  apply respects_bind (respects_within respects_requireCells (fun _ _ h => h.1)
    fun _ _ _ _ h halike => ⟨halike, h.2⟩)
  intro sheet
  apply respects_get_bind
  · intro s t h
    rw [h.1.looping_eq]
  · intro s
    exact hfiles _

/-! ## Requests -/

/-- A board, with the clock and the files beside it. -/
structure Desk where
  board : Board
  clock : Clock
  files : Files

namespace Desk

/-- A procedure on the board. -/
def onBoard (p : Procedure Board α) : Procedure Desk α :=
  p.within (·.board) fun b d => { d with board := b }

/-- A procedure on the board and the clock. -/
def onClock (p : Procedure (Board × Clock) α) : Procedure Desk α :=
  p.within (fun d => (d.board, d.clock)) fun s d => { d with board := s.1, clock := s.2 }

/-- A procedure on the board and the files. -/
def onFiles (p : Procedure (Board × Files) α) : Procedure Desk α :=
  p.within (fun d => (d.board, d.files)) fun s d => { d with board := s.1, files := s.2 }

/-- The boards correspond, and what is beside them is the same. -/
structure Alike (config : GridConfig) (d d' : Desk) : Prop where
  board : Board.Alike config d.board d'.board
  clock : d.clock = d'.clock
  files : d.files = d'.files

theorem respects_onBoard {p : Procedure Board α} (hp : Respects (Board.Alike config) p) :
    Respects (Alike config) (onBoard p) :=
  respects_within hp (fun _ _ h => h.board) fun _ _ _ _ h hb => ⟨hb, h.clock, h.files⟩

theorem respects_onClock {p : Procedure (Board × Clock) α}
    (hp : Respects (AlikeWithClock config) p) :
    Respects (Alike config) (onClock p) :=
  respects_within hp (fun _ _ h => ⟨h.board, h.clock⟩) fun _ _ _ _ h hs => ⟨hs.1, hs.2, h.files⟩

theorem respects_onFiles {p : Procedure (Board × Files) α}
    (hp : Respects (AlikeWithFiles config) p) :
    Respects (Alike config) (onFiles p) :=
  respects_within hp (fun _ _ h => ⟨h.board, h.files⟩) fun _ _ _ _ h hs => ⟨hs.1, h.clock, hs.2⟩

end Desk

/-- What can be asked of a board, with the arguments as a caller gives them. -/
inductive Request where
  | init
  | get (stop : Stop)
  | set (stop : Stop) (color : Json)
  | colorPoint (x y color : Json)
  | fillArea (area : List Json) (color : Json)
  | dirtyPoints
  | snapshot
  | blankCopy
  | convertImage (data width height layout palette : Json)
  | compileTour (tour : List Stop) (heading first : Json) (stopAfterDone : Bool)
  | compileGrid (start finish : Option Stop) (heading first : Json) (settings : CompileConfig)
  | replay (program : LooseProgram) (start : Stop) (startState maxSteps : Json)
  | tourSegments (tour : List Stop)
  | save (path : Path)

/-- What a board answers. -/
inductive Answer where
  | done
  | color (color : Int)
  | value (value : Json)
  | points (points : List Point)
  | sheet (sheet : Sheet)
  | board (board : Board)
  | compiled (compiled : LooseCompiled)
  | replay (replay : LooseReplay)
  | walk (segments : List (List Point))

/-- What is done at a request. -/
def Request.perform : Request → Procedure Desk Answer
  | init => do pure (.sheet (← Desk.onBoard Board.init))
  | get stop => do pure (.color (← Desk.onBoard (colorAt stop)))
  | set stop color => do
    Desk.onBoard (paint stop color)
    pure (.value color)
  | colorPoint x y color => do
    let p ← Procedure.ofExcept (Point.ofValues? x y)
    Desk.onBoard (paint (.point p) color)
    pure .done
  | fillArea area color => do
    Desk.onBoard (fill area color)
    pure .done
  | dirtyPoints => do pure (.points (← Desk.onBoard Board.dirtyPoints))
  | snapshot => do pure (.sheet (← Desk.onBoard requireCells))
  | blankCopy => do pure (.board (← Procedure.ofExcept (← MonadState.get).board.blankCopy?))
  | convertImage data width height layout palette => do
    Desk.onBoard (rasterize data width height layout palette)
    pure .done
  | compileTour tour heading first stopAfterDone => do
    let heading ← Procedure.ofExcept (Direction.heading? heading)
    pure (.compiled (← Desk.onBoard (Board.compileTour tour heading first stopAfterDone)))
  | compileGrid start finish heading first settings => do
    let heading ← Procedure.ofExcept (Direction.heading? heading)
    pure (.compiled (← Desk.onClock (compile start finish heading first settings)))
  | replay program start startState maxSteps => do
    pure (.replay (← Desk.onBoard (Board.replay program start startState maxSteps)))
  | tourSegments tour => do
    pure (.walk (← Procedure.ofExcept ((← MonadState.get).board.segments? tour)))
  | save path => do
    Desk.onFiles (Board.save path)
    pure .done

theorem Request.respects_perform (request : Request) :
    Respects (Desk.Alike config) request.perform := by
  cases request with
  | init => exact respects_bind (Desk.respects_onBoard respects_init) fun _ => respects_pure _
  | get stop =>
    exact respects_bind (Desk.respects_onBoard (respects_colorAt stop)) fun _ => respects_pure _
  | set stop color =>
    exact respects_bind (Desk.respects_onBoard (respects_paint stop color)) fun _ => respects_pure _
  | colorPoint x y color =>
    apply respects_bind (respects_ofExcept _)
    intro p
    exact respects_bind (Desk.respects_onBoard (respects_paint _ color)) fun _ => respects_pure _
  | fillArea area color =>
    exact respects_bind (Desk.respects_onBoard (respects_fill area color)) fun _ => respects_pure _
  | dirtyPoints =>
    exact respects_bind (Desk.respects_onBoard respects_dirtyPoints) fun _ => respects_pure _
  | snapshot =>
    exact respects_bind (Desk.respects_onBoard respects_requireCells) fun _ => respects_pure _
  | blankCopy =>
    apply respects_get_bind
    · intro d d' h
      rw [h.board.blankCopy?_eq]
    · intro d
      exact respects_bind (respects_ofExcept _) fun _ => respects_pure _
  | convertImage data width height layout palette =>
    exact respects_bind (Desk.respects_onBoard (respects_rasterize _ _ _ _ _)) fun _ =>
      respects_pure _
  | compileTour tour heading first stopAfterDone =>
    apply respects_bind (respects_ofExcept _)
    intro heading
    exact respects_bind (Desk.respects_onBoard (respects_compileTour tour heading first _)) fun _ =>
      respects_pure _
  | compileGrid start finish heading first settings =>
    apply respects_bind (respects_ofExcept _)
    intro heading
    exact respects_bind (Desk.respects_onClock (respects_compile start finish heading first _))
      fun _ => respects_pure _
  | replay program start startState maxSteps =>
    exact respects_bind (Desk.respects_onBoard (respects_replay program start _ _)) fun _ =>
      respects_pure _
  | tourSegments tour =>
    apply respects_get_bind
    · intro d d' h
      rw [h.board.segments?_eq]
    · intro d
      exact respects_bind (respects_ofExcept _) fun _ => respects_pure _
  | save path =>
    exact respects_bind (Desk.respects_onFiles (respects_save path)) fun _ => respects_pure _

/-- The answers to requests, of which any may be refused, and what is left. -/
def answers : List Request → Desk → List (Except Error Answer) × Desk
  | [], d => ([], d)
  | request :: requests, d =>
    let (answer, d) := request.perform.runOn d
    let (others, d) := answers requests d
    (answer :: others, d)

theorem answers_cons (request : Request) (requests : List Request) (d : Desk) :
    answers (request :: requests) d =
      ((request.perform.runOn d).1 :: (answers requests (request.perform.runOn d).2).1,
        (answers requests (request.perform.runOn d).2).2) := rfl

theorem answers_alike {d d' : Desk} (h : Desk.Alike config d d') (requests : List Request) :
    (answers requests d).1 = (answers requests d').1 ∧
      Desk.Alike config (answers requests d).2 (answers requests d').2 := by
  induction requests generalizing d d' with
  | nil => exact ⟨rfl, h⟩
  | cons request requests ih =>
    obtain ⟨hanswer, hdesk⟩ := request.respects_perform d d' h
    obtain ⟨hothers, hend⟩ := ih hdesk
    rw [answers_cons, answers_cons, hanswer, hothers]
    exact ⟨rfl, hend⟩

/-! ## New boards -/

/-- The board that holds no cells yet and the blank one of the same sizes. -/
theorem exists_grid_of_ofSizes? {cols rows looping lazyInit : Json} {waiting blank : Board}
    (hwaiting : ofSizes? cols rows looping lazyInit .none = .ok waiting)
    (hblank : ofSizes? cols rows looping lazyInit .blank = .ok blank) :
    ∃ (config : GridConfig) (fits : config.Fits), config.lazyInit = lazyInit.isTruthy ∧
      waiting = ⟨looping, lazyInit, .exact config .empty⟩ ∧
      blank = ⟨looping, lazyInit, .exact config ⟨some (.blank fits)⟩⟩ := by
  unfold ofSizes? at hwaiting hblank
  obtain ⟨_, -, hwaiting⟩ := bind_eq_ok.1 hwaiting
  obtain ⟨_, -, hblank⟩ := bind_eq_ok.1 hblank
  extract_lets at hwaiting hblank
  split at hblank
  · obtain ⟨config, hconfig, hblank⟩ := bind_eq_ok.1 hblank
    obtain ⟨g, hg, hblank⟩ := bind_eq_ok.1 hblank
    obtain ⟨config', hconfig', hwaiting⟩ := bind_eq_ok.1 hwaiting
    obtain rfl : config = config' := Except.ok.inj (hconfig.symm.trans hconfig')
    obtain ⟨_, hempty, hwaiting⟩ := bind_eq_ok.1 hwaiting
    obtain rfl := Except.ok.inj hempty
    obtain rfl := pure_eq_ok.1 hwaiting
    obtain rfl := pure_eq_ok.1 hblank
    obtain ⟨c, hc, hg⟩ := bind_eq_ok.1 hg
    obtain rfl := pure_eq_ok.1 hg
    obtain ⟨m, -, hconfig⟩ := bind_eq_ok.1 hconfig
    obtain rfl := pure_eq_ok.1 hconfig
    unfold Canvas.blank? at hc
    split at hc
    · next fits =>
      obtain rfl := Except.ok.inj hc
      exact ⟨_, fits, rfl, rfl, rfl⟩
    · cases hc
  · obtain ⟨_, hg, -⟩ := bind_eq_ok.1 hblank
    cases hg

/-- A board that is filled when it is first used answers every request as a blank one of the same
sizes, with the same result or the same error, and leaves the same clock and files. It holds the
same cells, unless it holds none yet; then the other one is still blank. -/
theorem lazy_answers_as_blank {cols rows looping lazyInit : Json} {waiting blank : Board}
    (hlazy : lazyInit.isTruthy = true)
    (hwaiting : ofSizes? cols rows looping lazyInit .none = .ok waiting)
    (hblank : ofSizes? cols rows looping lazyInit .blank = .ok blank)
    (clock : Clock) (files : Files) (requests : List Request) :
    ∃ (replies : List (Except Error Answer)) (waiting' blank' : Board) (clock' : Clock)
        (files' : Files),
      answers requests ⟨waiting, clock, files⟩ = (replies, ⟨waiting', clock', files'⟩) ∧
      answers requests ⟨blank, clock, files⟩ = (replies, ⟨blank', clock', files'⟩) ∧
      (waiting'.sheet? = blank'.sheet? ∨
        waiting'.sheet? = none ∧ blank'.sheet? = blank.sheet?) := by
  obtain ⟨config, fits, hfills, rfl, rfl⟩ := exists_grid_of_ofSizes? hwaiting hblank
  have halike : Desk.Alike config ⟨⟨looping, lazyInit, .exact config .empty⟩, clock, files⟩
      ⟨⟨looping, lazyInit, .exact config ⟨some (.blank fits)⟩⟩, clock, files⟩ :=
    ⟨.exact (hfills.trans hlazy) looping lazyInit (.waiting fits), rfl, rfl⟩
  obtain ⟨hreplies, hboard, hclock, hfiles⟩ := answers_alike halike requests
  rcases hw : answers requests ⟨⟨looping, lazyInit, .exact config .empty⟩, clock, files⟩ with
    ⟨replies, waiting', clock', files'⟩
  rcases hb : answers requests ⟨⟨looping, lazyInit, .exact config ⟨some (.blank fits)⟩⟩, clock,
    files⟩ with ⟨replies', blank', clock'', files''⟩
  rw [hw, hb] at hreplies hboard hclock hfiles
  simp only at hreplies hboard hclock hfiles
  subst hreplies hclock hfiles
  refine ⟨replies, waiting', blank', clock', files', rfl, rfl, ?_⟩
  cases hboard with
  | exact _ looping lazyInit halike =>
    cases halike with
    | waiting fits => exact Or.inr ⟨rfl, rfl⟩
    | same => exact Or.inl rfl

end

/-- A color that is refused before there are cells, an image that is refused with its palette, a
color that is refused after the cells were made, and a replay and a compilation on what is there. -/
def hesitant : List Request :=
  [.set (.point ⟨0, 0⟩) (.int (-1)),
    .convertImage (.arr []) (.int 1) (.int 1) .null Palette.standard,
    .fillArea [.int 0, .int 0, .int 5, .int 0] (.int (2 ^ 63)),
    .colorPoint (.int 4) (.int (-1)) (.int 3),
    .replay ⟨[(.int 0, [⟨.int 2, .left, .int (-1)⟩])]⟩ (.point ⟨0, 1⟩) (.int 0) (.int 9),
    .compileGrid none none (.str ("up" : Text)) (.int 0) ⟨0, false, true, .detailed⟩,
    .save ("g.json" : Path)]

theorem lazy_answers_hesitant :
    (Json.int 1).isTruthy = true ∧ ∃ waiting blank : Board,
      ofSizes? (.int 3) (.int 2) (.bool false) (.int 1) .none = .ok waiting ∧
      ofSizes? (.int 3) (.int 2) (.bool false) (.int 1) .blank = .ok blank ∧
      waiting.sheet? = none ∧ blank.sheet?.isSome = true ∧
      ∃ (replies : List (Except Error Answer)) (waiting' blank' : Board) (clock' : Clock)
        (files' : Files),
        answers hesitant ⟨waiting, .start [0.0], .empty []⟩ = (replies, ⟨waiting', clock', files'⟩) ∧
        answers hesitant ⟨blank, .start [0.0], .empty []⟩ = (replies, ⟨blank', clock', files'⟩) ∧
        (waiting'.sheet? = blank'.sheet? ∨
          waiting'.sheet? = none ∧ blank'.sheet? = blank.sheet?) := by
  have hwaiting : ofSizes? (.int 3) (.int 2) (.bool false) (.int 1) .none = .ok _ := rfl
  have hblank : ofSizes? (.int 3) (.int 2) (.bool false) (.int 1) .blank = .ok _ := rfl
  exact ⟨rfl, _, _, hwaiting, hblank, rfl, rfl,
    lazy_answers_as_blank rfl hwaiting hblank (.start [0.0]) (.empty []) hesitant⟩

end Board
end Turmite
