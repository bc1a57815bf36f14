import Turmite.Proofs.DrawnWalk
import Turmite.Proofs.Unclamped

/-!
# Walks cut at the seams

On a torus a step leads to the cell beside, or from one end of a row or a column to the other
(`Metric.adjacent_step`); along an axis of one cell there are no moves
(`Metric.extent_of_mem_moves`), and on one of two cells both ends lie beside each other. So the walk
along a tour is cut where it goes from end to end, and nowhere else (`Metric.splitJumps_spec`), and
on a bounded board it is not cut (`Grid.segments_cut_at_seams`).
-/

namespace Turmite

namespace Metric

variable {m : Metric} {p q : Point}

/-! ## Cutting at jumps -/

theorem exists_splitJumps_eq (p : Point) (cells : List Point) :
    ∃ rest segments, splitJumps p cells = (p :: rest) :: segments := by
  cases cells with
  | nil => exact ⟨[], [], rfl⟩
  | cons q r =>
    unfold splitJumps
    split
    · exact ⟨[], [], rfl⟩
    · split_ifs
      · exact ⟨[], _, rfl⟩
      · exact ⟨_, _, rfl⟩

theorem splitJumps_cons_of_isJump (h : isJump p q = true) (r : List Point) :
    splitJumps p (q :: r) = [p] :: splitJumps q r := by
  obtain ⟨rest, segments, hrest⟩ := exists_splitJumps_eq q r
  rw [splitJumps, hrest]
  exact if_pos h

theorem splitJumps_cons_of_not_isJump (h : isJump p q = false) {r rest : List Point}
    {segments : List (List Point)} (hrest : splitJumps q r = rest :: segments) :
    splitJumps p (q :: r) = (p :: rest) :: segments := by
  rw [splitJumps, hrest]
  exact if_neg (by rw [h]; exact Bool.false_ne_true)

/-- Inside of the pieces of a chain there is no jump, and there is one from each to the next. -/
theorem splitJumps_spec {R : Point → Point → Prop} {cells : List Point}
    (h : (p :: cells).IsChain R) :
    (∀ s ∈ splitJumps p cells, s ≠ [] ∧ s.IsChain fun a b => R a b ∧ isJump a b = false) ∧
    (splitJumps p cells).IsChain fun s t =>
      ∃ a ∈ s.getLast?, ∃ b ∈ t.head?, R a b ∧ isJump a b = true := by
  induction cells generalizing p with
  | nil => simp [splitJumps]
  | cons q r ih =>
    obtain ⟨hpq, hr⟩ := List.isChain_cons_cons.1 h
    obtain ⟨hinside, hbetween⟩ := ih hr
    obtain ⟨rest, segments, hrest⟩ := exists_splitJumps_eq q r
    cases hjump : isJump p q with
    | true =>
      rw [splitJumps_cons_of_isJump hjump]
      refine ⟨List.forall_mem_cons.2 ⟨⟨List.cons_ne_nil _ _, List.IsChain.singleton p⟩, hinside⟩, ?_⟩
      refine List.isChain_cons.2 ⟨fun t ht => ?_, hbetween⟩
      rw [hrest] at ht
      obtain rfl := Option.some.inj ht
      exact ⟨p, rfl, q, rfl, hpq, hjump⟩
    | false =>
      rw [splitJumps_cons_of_not_isJump hjump hrest]
      rw [hrest, List.forall_mem_cons] at hinside
      rw [hrest, List.isChain_cons] at hbetween
      constructor
      · exact List.forall_mem_cons.2 ⟨⟨List.cons_ne_nil _ _,
          List.IsChain.cons_cons ⟨hpq, hjump⟩ hinside.1.2⟩, hinside.2⟩
      · refine List.isChain_cons.2 ⟨fun t ht => ?_, hbetween.2⟩
        rw [List.getLast?_cons_cons]
        exact hbetween.1 t ht

/-- A walk without jumps is not cut. -/
theorem splitJumps_of_isChain {cells : List Point}
    (h : (p :: cells).IsChain fun a b => isJump a b = false) :
    splitJumps p cells = [p :: cells] := by
  induction cells generalizing p with
  | nil => rfl
  | cons q r ih =>
    obtain ⟨hpq, hr⟩ := List.isChain_cons_cons.1 h
    exact splitJumps_cons_of_not_isJump hpq (ih hr)

/-! ## Steps across a seam -/

/-- The first and the last cell of a row or a column. -/
def AtOppositeEnds (m : Metric) (p q : Point) : Prop :=
  p.y = q.y ∧ (p.x = 0 ∧ q.x = m.cols - 1 ∨ p.x = m.cols - 1 ∧ q.x = 0) ∨
    p.x = q.x ∧ (p.y = 0 ∧ q.y = m.rows - 1 ∨ p.y = m.rows - 1 ∧ q.y = 0)

/-- Opposite ends that do not lie beside each other. -/
def AcrossSeam (m : Metric) (p q : Point) : Prop :=
  m.AtOppositeEnds p q ∧ 1 < (q.x - p.x).natAbs + (q.y - p.y).natAbs

/-- Cells beside each other, on the plane or across a seam. -/
def Adjacent (m : Metric) (p q : Point) : Prop := p.Beside q ∨ m.AcrossSeam p q

/-- The number of cells along the axis of a direction. -/
def extent (m : Metric) : Direction → Nat
  | .right | .left => m.cols
  | .down | .up => m.rows

theorem isJump_eq_false (h : p.Beside q) : isJump p q = false :=
  decide_eq_false fun hjump => Nat.lt_irrefl 1 (h ▸ hjump)

/-- Adjacent cells that are a jump away lie across a seam. -/
theorem Adjacent.acrossSeam (h : m.Adjacent p q) (hjump : isJump p q = true) :
    m.AcrossSeam p q :=
  h.resolve_left fun hbeside => Bool.false_ne_true ((isJump_eq_false hbeside).symm.trans hjump)

theorem Adjacent.beside (h : m.Adjacent p q) (hjump : isJump p q = false) : p.Beside q :=
  h.resolve_right fun hacross => of_decide_eq_false hjump hacross.2

section Axis

variable {a : Int} {size : Nat} (h0 : 0 ≤ a) (h : a < size) (h2 : 2 ≤ size)

include h0 h h2

/-- One cell on is beside, or the first one after the last. -/
theorem natAbs_emod_add_one_sub :
    ((a + 1) % size - a).natAbs = 1 ∨
      (a = size - 1 ∧ (a + 1) % size = 0) ∧ 1 < ((a + 1) % size - a).natAbs := by
  by_cases hlast : a = size - 1
  · have hfirst : (a + 1) % size = 0 := by rw [hlast, Int.sub_add_cancel, Int.emod_self]
    omega
  · have hnext : (a + 1) % size = a + 1 := Int.emod_eq_of_lt (by omega) (by omega)
    omega

/-- One cell back is beside, or the last one before the first. -/
theorem natAbs_emod_sub_one_sub :
    ((a - 1) % size - a).natAbs = 1 ∨
      (a = 0 ∧ (a - 1) % size = size - 1) ∧ 1 < ((a - 1) % size - a).natAbs := by
  by_cases hfirst : a = 0
  · have hlast : (a - 1) % size = size - 1 := by
      rw [hfirst, ← Int.add_emod_right]
      exact (Int.emod_eq_of_lt (by omega) (by omega)).trans (by omega)
    omega
  · have hnext : (a - 1) % size = a - 1 := Int.emod_eq_of_lt (by omega) (by omega)
    omega

end Axis

/-- On a torus a step along an axis of two cells or more leads to an adjacent cell. -/
theorem adjacent_step (hl : m.looping) (hp : m.Contains p) {d : Direction}
    (hd : 2 ≤ m.extent d) : m.Adjacent p (m.step p d) := by
  obtain ⟨⟨hx, hx'⟩, hy, hy'⟩ := hp
  have hstep : m.step p d = ⟨(p.x + d.dx) % m.cols, (p.y + d.dy) % m.rows⟩ := if_pos hl
  have hrow : (p.y + 0) % m.rows = p.y := by rw [Int.add_zero, Int.emod_eq_of_lt hy hy']
  have hcolumn : (p.x + 0) % m.cols = p.x := by rw [Int.add_zero, Int.emod_eq_of_lt hx hx']
  unfold Adjacent AcrossSeam AtOppositeEnds Point.Beside
  rw [hstep]
  cases d with
  | right =>
    have hnext := natAbs_emod_add_one_sub hx hx' hd
    simp only [Direction.dx, Direction.dy, hrow, true_and]
    omega
  | left =>
    have hnext := natAbs_emod_sub_one_sub hx hx' hd
    simp only [Direction.dx, Direction.dy, hrow, true_and, Int.add_neg_one]
    omega
  | down =>
    have hnext := natAbs_emod_add_one_sub hy hy' hd
    simp only [Direction.dx, Direction.dy, hcolumn, true_and]
    omega
  | up =>
    have hnext := natAbs_emod_sub_one_sub hy hy' hd
    simp only [Direction.dx, Direction.dy, hcolumn, true_and, Int.add_neg_one]
    omega

/-- Along an axis of one cell there is no travel. -/
theorem extent_of_mem_moves {e : Displacement} (hx : e.dx.natAbs < m.cols)
    (hy : e.dy.natAbs < m.rows) {d : Direction} (hd : d ∈ e.moves) : 2 ≤ m.extent d := by
  unfold Displacement.moves at hd
  rcases List.mem_append.1 hd with hd | hd
  · obtain ⟨hcount, rfl⟩ := List.mem_replicate.1 hd
    have hcols : 2 ≤ m.cols := by omega
    split_ifs <;> exact hcols
  · obtain ⟨hcount, rfl⟩ := List.mem_replicate.1 hd
    have hrows : 2 ≤ m.rows := by omega
    split_ifs <;> exact hrows

theorem extent_of_mem_expandMoves (hl : m.looping) {tour : List Point}
    {d : Direction} (hd : d ∈ m.expandMoves tour) : 2 ≤ m.extent d := by
  induction tour with
  | nil => cases hd
  | cons p r ih =>
    cases r with
    | nil => cases hd
    | cons q r =>
      rw [expandMoves_cons_cons, List.mem_append] at hd
      rcases hd with hd | hd
      · obtain ⟨hx, hy⟩ := natAbs_displacement_lt (p := p) (q := q) (Or.inl hl)
        exact extent_of_mem_moves hx hy hd
      · exact ih hd

/-- A walk on a torus goes through adjacent cells. -/
theorem isChain_track_of_looping (hl : m.looping) (hp : m.Contains p) {moves : List Direction}
    (h : ∀ d ∈ moves, 2 ≤ m.extent d) : (m.track p moves).IsChain m.Adjacent := by
  induction moves generalizing p with
  | nil => exact List.IsChain.singleton p
  | cons d moves ih =>
    rw [List.forall_mem_cons] at h
    rw [track_cons, List.isChain_cons]
    refine ⟨fun q hq => ?_, ih (m.contains_step p d) h.2⟩
    rw [head?_track, Option.mem_some_iff] at hq
    rw [← hq]
    exact adjacent_step hl hp h.1

/-- The pieces of a walk through adjacent cells go from cell to cell, and end at seams. -/
theorem splitJumps_of_adjacent {cells : List Point} (h : (p :: cells).IsChain m.Adjacent) :
    (∀ s ∈ splitJumps p cells, s ≠ [] ∧ s.IsChain Point.Beside) ∧
    (splitJumps p cells).IsChain fun s t => ∃ a ∈ s.getLast?, ∃ b ∈ t.head?, m.AcrossSeam a b := by
  obtain ⟨hinside, hbetween⟩ := splitJumps_spec h
  refine ⟨fun s hs => ⟨(hinside s hs).1, (hinside s hs).2.imp fun a b hab => hab.1.beside hab.2⟩, ?_⟩
  exact hbetween.imp fun s t ⟨a, ha, b, hb, hab, hjump⟩ => ⟨a, ha, b, hb, hab.acrossSeam hjump⟩

/-! ## Walks along tours -/

section Walk

variable {start : Point} {others : List Point}

/-- On a bounded board the walk through cells goes from each to a cell beside. -/
theorem isChain_beside_of_bounded (hl : m.looping = false)
    (h : ∀ p ∈ start :: others, m.Contains p) :
    (m.track (m.normalize start) (m.expandMoves (start :: others))).IsChain Point.Beside := by
  rw [m.normalize_of_contains (h start List.mem_cons_self)]
  exact (unclamped_expandMoves hl h).isChain_track

theorem isChain_adjacent (h : m.looping ∨ ∀ p ∈ start :: others, m.Contains p) :
    (m.track (m.normalize start) (m.expandMoves (start :: others))).IsChain m.Adjacent := by
  cases hl : m.looping with
  | true =>
    exact isChain_track_of_looping hl (m.contains_normalize start) fun d hd =>
      extent_of_mem_expandMoves hl hd
  | false =>
    have hcells := h.resolve_left (by simp [hl])
    exact (isChain_beside_of_bounded hl hcells).imp fun p q => Or.inl

end Walk

/-- The walk of a tour passes the cell of each point as far on as the path to it is long. -/
theorem getElem?_track_of_faithful {start : Point} {others : List Point}
    (h : m.Faithful (start :: others)) {i : Nat} {p : Point} (hp : (start :: others)[i]? = some p) :
    (m.track (m.normalize start) (m.expandMoves (start :: others)))[
      m.pathLength ((start :: others).take (i + 1))]? = some (m.normalize p) := by
  have hcontains : ∀ q ∈ (start :: others).map m.normalize, m.Contains q :=
    List.forall_mem_map.2 fun q _ => m.contains_normalize q
  have hlength := faithful_iff.1 (List.IsChain.take h (i + 1))
  have hcell : ((start :: others).map m.normalize)[i]? = some (m.normalize p) := by
    rw [List.getElem?_map, hp, Option.map_some]
  have hpassed := getElem?_track_expandMoves hcontains hcell []
  rw [List.append_nil, ← List.map_cons, h.expandMoves_eq, ← List.map_take, ← hlength] at hpassed
  exact hpassed

theorem getLast?_track_of_faithful {start : Point} {others : List Point}
    (h : m.Faithful (start :: others)) :
    (m.track (m.normalize start) (m.expandMoves (start :: others))).getLast? =
      some (m.normalize ((start :: others).getLast (List.cons_ne_nil start others))) := by
  have hcontains : ∀ q ∈ (start :: others).map m.normalize, m.Contains q :=
    List.forall_mem_map.2 fun q _ => m.contains_normalize q
  have hgoal : (m.normalize start :: others.map m.normalize).getLast (List.cons_ne_nil _ _) =
      m.normalize ((start :: others).getLast (List.cons_ne_nil _ _)) :=
    List.getLast_map (f := m.normalize) (l := start :: others) (List.cons_ne_nil _ _)
  rw [getLast?_track, ← h.expandMoves_eq, ← hgoal]
  exact congrArg some (follow_expandMoves hcontains)

end Metric

namespace Grid

/-- The walk along a tour is cut where it goes from one end of a row or a column to the other,
unless these lie beside each other, and nowhere else. No cell of it is lost or comes twice at a cut:
it passes the cell of each point as far on as the path to it is long. It is refused only if its
cells, one more than there are moves, do not fit in memory. -/
theorem segments_cut_at_seams [Memory] {config : GridConfig} (hm : config.Exact) {start : Point}
    {others : List Point} (h : config.looping ∨ ∀ p ∈ start :: others, config.Contains p) :
    let tour := start :: others
    let segments := config.segments tour
    let walk := segments.flatten
    (config.pathLength tour < Memory.words → segments? config tour = .ok segments) ∧
    (Memory.words ≤ config.pathLength tour → segments? config tour = .error .outOfMemory) ∧
    (∀ s ∈ segments, s ≠ [] ∧ s.IsChain Point.Beside) ∧
    (segments.IsChain fun s t => ∃ p ∈ s.getLast?, ∃ q ∈ t.head?, config.AcrossSeam p q) ∧
    walk.length = config.pathLength tour + 1 ∧
    walk.head? = some (config.normalize start) ∧
    walk.getLast? = some (config.normalize (tour.getLast (List.cons_ne_nil start others))) ∧
    (∀ i p, tour[i]? = some p →
      walk[config.pathLength (tour.take (i + 1))]? = some (config.normalize p)) ∧
    (config.looping = false → segments = [walk]) := by
  intro tour segments walk
  have hwalk : walk = config.track (config.normalize start) (config.expandMoves tour) :=
    Metric.flatten_segments start others
  have hfaithful : config.Faithful tour := Metric.faithful_of_travels h
  have hadjacent := Metric.isChain_adjacent h
  rw [Metric.track_eq_cons_walk] at hadjacent
  obtain ⟨hinside, hbetween⟩ := Metric.splitJumps_of_adjacent hadjacent
  refine ⟨fun hfits => ?_, fun hlong => ?_, hinside, hbetween, ?_, ?_, ?_, fun i p hp => ?_,
    fun hl => ?_⟩
  · exact segments?_eq_ok.2 ⟨Metric.ensureWalk_of_lt hm.measurable hfits, rfl⟩
  · have hindexed : tour.IsChain fun p q => (config.displacement p q).Indexed :=
      (Metric.isChain_travels h).imp fun _ _ => Metric.indexed_displacement hm
    obtain ⟨e, herror, hmemory⟩ := Metric.ensureWalk_eq_error hm.measurable hlong
    unfold segments?
    rw [herror, hmemory hindexed]
    rfl
  · rw [hwalk, Metric.length_track, Metric.length_expandMoves]
  · rw [hwalk, Metric.head?_track]
  · rw [hwalk, Metric.getLast?_track_of_faithful hfaithful]
  · rw [hwalk, Metric.getElem?_track_of_faithful hfaithful hp]
  · have hbeside := Metric.isChain_beside_of_bounded hl (h.resolve_left (by simp [hl]))
    rw [Metric.track_eq_cons_walk] at hbeside
    rw [hwalk, Metric.track_eq_cons_walk]
    exact Metric.splitJumps_of_isChain (hbeside.imp fun p q => Metric.isJump_eq_false)

/-- A walk across two seams, that of the four columns, where it is cut, and that of the two rows. -/
theorem segments_cut_at_seams_round :
    ring.Exact ∧ ring.looping = true ∧
    segments? ⟨ring, false⟩ [⟨-1, 3⟩, ⟨5, 0⟩] = .ok [[⟨3, 1⟩], [⟨0, 1⟩, ⟨1, 1⟩, ⟨1, 0⟩]] ∧
    ring.AcrossSeam ⟨3, 1⟩ ⟨0, 1⟩ ∧ [⟨0, 1⟩, ⟨1, 1⟩, ⟨1, 0⟩].IsChain Point.Beside ∧
    ring.pathLength [⟨-1, 3⟩, ⟨5, 0⟩] + 1 = 4 := by
  have hm : ring.Exact := by decide
  obtain ⟨hsegments, -, hinside, hbetween, hlength, -⟩ :=
    @segments_cut_at_seams _ ⟨ring, false⟩ hm ⟨-1, 3⟩ [⟨5, 0⟩] (Or.inl rfl)
  obtain ⟨p, hp, q, hq, hacross⟩ := (List.isChain_cons_cons.1 hbetween).1
  obtain rfl : ⟨3, 1⟩ = p := Option.some.inj hp
  obtain rfl : ⟨0, 1⟩ = q := Option.some.inj hq
  exact ⟨hm, rfl, hsegments (by decide), hacross, (hinside _ (by decide)).2, hlength.symm⟩

/-- Half a row of the widest board is a tour, but there is no memory for its moves. -/
theorem segments_refused_across_vast_board :
    (⟨Nat.pow 2 53, 1, by decide, by decide, false⟩ : Metric).Exact ∧
    (∀ p ∈ ([⟨0, 0⟩, ⟨Nat.pow 2 52, 0⟩] : List Point),
      (⟨Nat.pow 2 53, 1, by decide, by decide, false⟩ : Metric).Contains p) ∧
    segments? ⟨⟨Nat.pow 2 53, 1, by decide, by decide, false⟩, false⟩
      [⟨0, 0⟩, ⟨Nat.pow 2 52, 0⟩] = .error .outOfMemory :=
  ⟨by decide, by decide, rfl⟩

end Grid
end Turmite
