import Turmite.Grid.File
import Turmite.LooseGrid.Figure
import Turmite.LooseGrid.Program
import Turmite.LooseProgram.Compile
import Turmite.Palette.Image

/-!
# Boards

A board is a grid as a caller asks for it: exact if its sizes are integers and loose if they are
not, with the values that tell whether it loops and whether it is filled when it is first used. What
is done to it is done to the grid. Points, colors, counts and states come as values, and are refused
where they are used and are none.
-/

namespace Turmite

/-- A grid of any sizes. -/
inductive AnyGrid [Memory] where
  | exact (config : GridConfig) (grid : Grid config)
  | loose (grid : LooseGrid)

/-- A grid of any sizes, with the values that tell whether it loops and how it starts. -/
structure Board [Memory] where
  looping : Json
  lazyInit : Json
  grid : AnyGrid

namespace Board

variable [Memory]

/-! ## Making boards -/

/-- What the cells of a board are at first. -/
inductive Start where
  | blank
  | none
  | array (items : Json)

/-- The board of an exact grid. -/
def ofGrid (looping lazyInit : Json) (g : (config : GridConfig) × Grid config) : Board :=
  ⟨looping, lazyInit, .exact g.1 g.2⟩

/-- The exact grid of a configuration as it starts. -/
def startExact? (config : GridConfig) : Start → Except Error (Grid config)
  | .blank => Grid.create? config
  | .none => .ok .empty
  | .array items => do Grid.ofArray? config (← WordArray.ofJson? items)

/-- The loose grid of given sizes as it starts. -/
def startLoose? (cols rows : Json) (looping lazyInit : Bool) : Start → Except Error LooseGrid
  | .blank => .error .wrongType
  | .none => .ok ⟨cols, rows, looping, lazyInit, none⟩
  | .array items => do
    LooseGrid.ofArray? cols rows looping lazyInit (← WordArray.ofJson? items)

/-- The board of given sizes. -/
def ofSizes? (cols rows looping lazyInit : Json) (start : Start) : Except Error Board := do
  GridConfig.checkSizes? cols rows
  let loops := looping.isTruthy
  let fills := lazyInit.isTruthy
  match cols, rows with
  | .int c, .int r =>
    let config ← GridConfig.ofSizes? c r loops fills
    pure ⟨looping, lazyInit, .exact config (← startExact? config start)⟩
  | _, _ => pure ⟨looping, lazyInit, .loose (← startLoose? cols rows loops fills start)⟩

/-- The board around a table of colors. -/
def ofCells? (cells looping : Json) : Except Error Board := do
  pure (ofGrid looping (.bool false) (← Grid.ofCells? cells looping.isTruthy))

/-- The board in a file; whether it loops may be decided by the caller. -/
def load? (files : Files) (path : Path) (looping : Option Json) : Except Error Board := do
  let (table, loops) ← Grid.readTable? files path
  let looping := looping.getD (.bool loops)
  pure (ofGrid looping (.bool false) (← Grid.ofTable? table looping.isTruthy))

/-! ## Looking at boards -/

/-- The numbers of columns and of rows. -/
def sizes (b : Board) : Json × Json :=
  match b.grid with
  | .exact config _ => (.int config.cols, .int config.rows)
  | .loose g => (g.cols, g.rows)

/-- The cells, if the board has any. -/
def sheet? (b : Board) : Option Sheet :=
  match b.grid with
  | .exact config g => g.canvas.map fun c => ⟨config, c⟩
  | .loose g => g.sheet

/-- The surface that a board lies on. -/
def surface (b : Board) : Surface :=
  match b.grid with
  | .exact config _ => .regular config.toMetric
  | .loose g => g.surface

/-- The cell in the middle. -/
def defaultStart? (b : Board) : Except Error Point :=
  match b.grid with
  | .exact config _ => .ok (Grid.defaultStart config)
  | .loose g => g.defaultStart?

/-- A board of the same sizes with every cell cleared. -/
def blankCopy? (b : Board) : Except Error Board :=
  match b.grid with
  | .exact config g => do pure { b with grid := .exact config (← g.blankCopy) }
  | .loose _ => .error .wrongType

/-- The walk along a tour, cut where it wraps. -/
def segments? (b : Board) (tour : List Stop) : Except Error (List (List Point)) :=
  match b.grid, Stop.points? tour with
  | .exact config _, some points => Grid.segments? config points
  | _, _ => b.surface.segments? tour

/-! ## Work on boards -/

variable {α : Type}

/-- A procedure on the grid of a board. -/
def onGrid (exact : (config : GridConfig) → Procedure (Grid config) α)
    (loose : Procedure LooseGrid α) : Procedure Board α :=
  ExceptT.mk fun b =>
    match b.grid with
    | .exact config g =>
      let (result, g) := (exact config).runOn g
      (result, { b with grid := .exact config g })
    | .loose g =>
      let (result, g) := loose.runOn g
      (result, { b with grid := .loose g })

/-- Clears every cell. -/
def init : Procedure Board Sheet :=
  onGrid (fun config => do return ⟨config, ← Grid.init⟩) LooseGrid.init

/-- The cells of a board in use. -/
def requireCells : Procedure Board Sheet :=
  onGrid (fun config => do return ⟨config, ← Grid.requireCells⟩) LooseGrid.requireCells

/-- The cell that a point stands for. -/
def cellOf (p : Point) : Procedure Board Point := do
  Procedure.ofExcept ((← get).surface.normalize? p)

/-- The color of the cell that a stop stands for. -/
def colorAt (s : Stop) : Procedure Board Int := do
  let _ ← requireCells
  let p ← Procedure.ofExcept s.point?
  onGrid (fun _ => Grid.colorAt p) (LooseGrid.colorAt p)

/-- Refuses a color that is negative or no number, and a board without cells. -/
def prepareColor (color : Json) : Procedure Board Unit := do
  Procedure.ofExcept (color.ensureAtLeast 0 InvalidArgument.negativeColor)
  let _ ← requireCells

/-- Colors the cell that a stop stands for. -/
def paint (s : Stop) (color : Json) : Procedure Board Unit := do
  prepareColor color
  let cell ← cellOf (← Procedure.ofExcept s.point?)
  let word ← Procedure.ofExcept color.word?
  let _ ← onGrid (fun _ => Grid.paint cell word) (LooseGrid.paint cell word)

/-- Colors the inclusive rectangle between two corners, each given by two coordinates. -/
def fill (area : List Json) (color : Json) : Procedure Board Unit := do
  match area with
  | [a, b, c, d] =>
    prepareColor color
    let p ← cellOf (← Procedure.ofExcept (Point.ofValues? a b))
    let q ← cellOf (← Procedure.ofExcept (Point.ofValues? c d))
    let word ← Procedure.ofExcept color.word?
    onGrid (fun _ => Grid.fill p q word) (LooseGrid.fill p q word)
  | _ => throw .wrongType

/-- Colors every cell after an image. -/
def rasterize (data width height layout palette : Json) : Procedure Board Unit := do
  let picture ← Procedure.ofExcept (Image.Picture.ofData? data width height layout)
  onGrid (fun _ => Grid.rasterize picture (Palette.ofJson? palette)) (throw .wrongType)

/-- The painted cells, column by column. -/
def dirtyPoints : Procedure Board (List Point) := do
  pure (← requireCells).2.painted

/-- Compiles from a first state: as it is if it is an integer, else from zero, with other states put
in its place. -/
def compileFrom {σ : Type} (first : Json) (stopAfterDone : Bool)
    (compile : Nat → Bool → Procedure σ Compiled) : Procedure σ LooseCompiled := do
  Procedure.ofExcept (first.ensureAtLeast 0 InvalidArgument.stateOffsetNegative)
  match first with
  | .int n => pure (← compile n.toNat stopAfterDone).loosen
  | _ => Procedure.ofExcept ((← compile 0 false).renumber? first stopAfterDone)

/-- Compiles a tour. -/
def compileTour (tour : List Stop) (heading : Direction) (first : Json) (stopAfterDone : Bool) :
    Procedure Board LooseCompiled := do
  Procedure.require (!tour.isEmpty) InvalidArgument.emptyTour
  compileFrom first stopAfterDone fun offset stops =>
    onGrid (fun _ => Grid.compileTour tour heading offset stops)
      (LooseGrid.compileTour tour heading offset stops)

/-- A procedure on the clock beside a board, too. -/
def onBench (exact : (config : GridConfig) → Procedure (Bench config) α)
    (loose : Procedure LooseGrid.Bench α) : Procedure (Board × Clock) α :=
  ExceptT.mk fun (b, clock) =>
    match b.grid with
    | .exact config g =>
      let (result, bench) := (exact config).runOn ⟨g, clock⟩
      (result, { b with grid := .exact config bench.grid }, bench.clock)
    | .loose g =>
      let (result, bench) := loose.runOn ⟨g, clock⟩
      (result, { b with grid := .loose bench.grid }, bench.clock)

/-- Compiles the painted cells. The first state of the settings is given apart from them. -/
def compile (start finish : Option Stop) (heading : Direction) (first : Json)
    (settings : CompileConfig) : Procedure (Board × Clock) LooseCompiled :=
  compileFrom first settings.stopAfterDone fun offset stops =>
    let settings := { settings with stateOffset := offset, stopAfterDone := stops }
    onBench (fun _ => Bench.compile start finish heading settings)
      (LooseGrid.compile start finish heading settings)

/-- The figure of a board and a tour. -/
def draw (tour : List Stop) (theme : Theme) (title : Option Text) : Procedure Board Drawing :=
  match Stop.points? tour with
  | some points => onGrid (fun _ => Grid.draw points theme title) (LooseGrid.draw tour theme title)
  | none =>
    onGrid (fun config => do
      let _ ← Grid.requireCells
      let _ ← Procedure.ofExcept ((Surface.regular config.toMetric).segments? tour)
      throw .noSuchPart) (LooseGrid.draw tour theme title)

/-- Writes a board to a file. -/
def save (path : Path) : Procedure (Board × Files) Unit := do
  (Files.makeDirectory path.parent).within (·.2) fun files s => (s.1, files)
  let s ← requireCells.within (·.1) fun b s => (b, s.2)
  let content := Grid.contentOf (← get).1.looping path s.2
  (Files.write path content).within (·.2) fun files s => (s.1, files)

/-! ## Replays -/

/-- More steps than any replay takes. -/
def endless : Nat := UInt64.size

/-- The steps after which a replay stops. A limit that is no integer is passed by the next one. -/
def stepLimit? (limit : Json) : Except Error Int := do
  limit.ensureAtLeast 0 InvalidValue.maxStepsNegative
  match limit.exactInteger? with
  | some n => pure n
  | none =>
    let x ← limit.toFloat?
    pure (if (Binary64.fraction? x).isSome then Binary64.ceiling x else endless)

/-- A run of at most `limit` steps more, after the cells of `trail`, the latest first. -/
def runFrom (p : LooseProgram) : (limit : Nat) → (state : Json) → (position : Point) →
    (trail : List Point) → Procedure Board LooseReplay
  | limit, state, position, trail => do
    let stop (reason : HaltReason) : LooseReplay :=
      ⟨position, trail.length, state, reason, (position :: trail).reverse⟩
    match ← Procedure.ofExcept (p.nextRule? state) with
    | .error reason => pure (stop reason)
    | .ok first =>
      match limit with
      | 0 => pure (stop .maxSteps)
      | limit + 1 => do
        let rule ← Procedure.ofExcept first
        paint (.point position) rule.color
        let next ← Procedure.ofExcept ((← get).surface.step? position rule.move)
        runFrom p limit rule.next next (position :: trail)

/-- Runs a program from the cell that a stop stands for. -/
def replay (p : LooseProgram) (start : Stop) (startState maxSteps : Json) :
    Procedure Board LooseReplay := do
  let limit ← Procedure.ofExcept (stepLimit? maxSteps)
  let cell ← cellOf (← Procedure.ofExcept start.point?)
  match p.integral?, startState with
  | some exact, .int state =>
    let run ← onGrid (fun _ => exact.replay cell state limit)
      (LooseGrid.replay exact cell state limit)
    pure (.ofReplay run)
  | _, state => runFrom p limit.toNat state cell []

end Board
end Turmite
