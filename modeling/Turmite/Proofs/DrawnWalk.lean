import Turmite.Figure.Drawing
import Turmite.Proofs.Account
import Turmite.Proofs.Retracing

/-!
# Drawn and compiled walks

A figure shows the walk from the cell of the first point along the tour as it is given, a program
goes from cell to cell of its points. On a torus both are the same. On a bounded board clamping
brings points nearer to each other, so the walks are the same exactly if the tour as given is no
longer than the path between its cells (`Metric.faithful_iff`). The marks of a figure stand on the
ends of the walk exactly if the ends of the tour are cells (`Grid.drawn_iff_compiled`).
-/

namespace Turmite

namespace Metric

variable {m : Metric}

/-! ## Walks that are cut -/

theorem track_eq_cons_walk (p : Point) (moves : List Direction) :
    m.track p moves = p :: m.walk p moves := by
  induction moves generalizing p with
  | nil => rfl
  | cons d moves ih => rw [track_cons, ih, walk]

theorem flatten_splitJumps (p : Point) (cells : List Point) :
    (splitJumps p cells).flatten = p :: cells := by
  induction cells generalizing p with
  | nil => rfl
  | cons q r ih =>
    have hrest := ih q
    unfold splitJumps
    cases hsegments : splitJumps q r with
    | nil =>
      rw [hsegments] at hrest
      cases hrest
    | cons segment segments =>
      rw [hsegments, List.flatten_cons] at hrest
      simp only
      split_ifs
      · rw [List.flatten_cons, List.flatten_cons, hrest, List.singleton_append]
      · rw [List.flatten_cons, List.cons_append, hrest]

/-- No cell of a walk is lost where it is cut. -/
theorem flatten_segments (p : Point) (r : List Point) :
    (m.segments (p :: r)).flatten = m.track (m.normalize p) (m.expandMoves (p :: r)) := by
  unfold segments
  rw [flatten_splitJumps, track_eq_cons_walk]

theorem take_track_append (p : Point) (moves moves' : List Direction) :
    (m.track p (moves ++ moves')).take (moves.length + 1) = m.track p moves := by
  have hlength : moves.length + 1 = (m.track p moves).length := (length_track p moves).symm
  rw [← track_append_tail, hlength, List.take_left]

section Memory

variable [Memory] (hm : m.measurable)

include hm

theorem ensureWalk_of_lt {tour : List Point} (h : m.pathLength tour < Memory.words) :
    m.ensureWalk tour = .ok () := by
  unfold ensureWalk
  rw [ensureExpandable_of_expandable hm (Nat.le_of_lt h), ensureRoom_of_le h]
  cases tour <;> rfl

/-- A walk has one cell more than moves. -/
theorem ensureWalk_eq_error {p : Point} {r : List Point}
    (h : Memory.words ≤ m.pathLength (p :: r)) :
    ∃ e, m.ensureWalk (p :: r) = .error e ∧
      ((p :: r).IsChain (fun p q => (m.displacement p q).Indexed) → e = .outOfMemory) := by
  unfold ensureWalk
  by_cases hmoves : m.Expandable (p :: r)
  · rw [ensureExpandable_of_expandable hm hmoves, ensureRoom_eq_error (Nat.lt_succ_of_le h)]
    exact ⟨.outOfMemory, rfl, fun _ => rfl⟩
  · obtain ⟨e, -, heq, hmemory⟩ := ensureExpandable_eq_error hm hmoves
    rw [heq]
    exact ⟨e, rfl, hmemory⟩

theorem ensureWalk_eq_ok_iff {p : Point} {r : List Point} :
    m.ensureWalk (p :: r) = .ok () ↔ m.pathLength (p :: r) < Memory.words := by
  refine ⟨fun hok => ?_, ensureWalk_of_lt hm⟩
  by_contra hlong
  obtain ⟨e, herror, -⟩ := ensureWalk_eq_error hm (Nat.le_of_not_lt hlong)
  cases hok.symm.trans herror

end Memory

/-! ## Tours as they are given -/

/-- The travel of each leg is that between the cells of its points. -/
def Faithful (m : Metric) (tour : List Point) : Prop :=
  tour.IsChain fun p q => m.displacement (m.normalize p) (m.normalize q) = m.displacement p q

theorem Faithful.expandMoves_eq {tour : List Point} (h : m.Faithful tour) :
    m.expandMoves (tour.map m.normalize) = m.expandMoves tour := by
  unfold Faithful at h
  induction h with
  | nil => rfl
  | singleton p => rfl
  | cons_cons hpq _ ih =>
    rw [List.map_cons, List.map_cons, expandMoves_cons_cons, expandMoves_cons_cons, hpq,
      ← List.map_cons, ih]

/-- The legs of a tour on a torus, or through cells, are travel. -/
theorem isChain_travels {tour : List Point} (h : m.looping ∨ ∀ p ∈ tour, m.Contains p) :
    tour.IsChain m.Travels :=
  (List.pairwise_of_forall_mem_list fun p hp q hq =>
    h.imp_right fun h => ⟨h p hp, h q hq⟩).isChain

theorem faithful_of_travels {tour : List Point}
    (h : m.looping ∨ ∀ p ∈ tour, m.Contains p) : m.Faithful tour :=
  (isChain_travels h).imp fun _ _ => displacement_normalize

section Clamping

variable (a b : Int) (n : Nat)

theorem natAbs_clamp_sub_clamp_le :
    (min (max b 0) ((n : Int) - 1) - min (max a 0) ((n : Int) - 1)).natAbs ≤ (b - a).natAbs := by
  omega

variable {a b n}

theorem clamp_sub_clamp_of_le
    (h : (b - a).natAbs ≤ (min (max b 0) ((n : Int) - 1) - min (max a 0) ((n : Int) - 1)).natAbs) :
    min (max b 0) ((n : Int) - 1) - min (max a 0) ((n : Int) - 1) = b - a := by
  omega

end Clamping

/-- Clamping brings points nearer to each other. -/
theorem distance_normalize_le (p q : Point) :
    m.distance (m.normalize p) (m.normalize q) ≤ m.distance p q := by
  by_cases hl : m.looping
  · exact Nat.le_of_eq (congrArg Displacement.length (displacement_normalize (Or.inl hl)))
  · unfold distance displacement normalize Displacement.length
    simp only [if_neg hl]
    exact Nat.add_le_add (natAbs_clamp_sub_clamp_le p.x q.x m.cols)
      (natAbs_clamp_sub_clamp_le p.y q.y m.rows)

/-- Travel that clamping does not shorten is the same. -/
theorem displacement_normalize_of_le {p q : Point}
    (h : m.distance p q ≤ m.distance (m.normalize p) (m.normalize q)) :
    m.displacement (m.normalize p) (m.normalize q) = m.displacement p q := by
  by_cases hl : m.looping
  · exact displacement_normalize (Or.inl hl)
  · have hx := natAbs_clamp_sub_clamp_le p.x q.x m.cols
    have hy := natAbs_clamp_sub_clamp_le p.y q.y m.rows
    unfold distance displacement normalize Displacement.length at h
    unfold displacement normalize
    simp only [if_neg hl] at h ⊢
    -- Neither axis can be shorter, since none is longer.
    have hx' := Nat.le_of_add_le_add_right (Nat.le_trans h (Nat.add_le_add_left hy _))
    have hy' := Nat.le_of_add_le_add_left (Nat.le_trans h (Nat.add_le_add_right hx _))
    rw [clamp_sub_clamp_of_le hx', clamp_sub_clamp_of_le hy']

theorem pathLength_normalize_le (tour : List Point) :
    m.pathLength (tour.map m.normalize) ≤ m.pathLength tour := by
  induction tour with
  | nil => exact Nat.le_refl _
  | cons p r ih =>
    cases r with
    | nil => exact Nat.le_refl _
    | cons q r => exact Nat.add_le_add (distance_normalize_le p q) ih

/-- A tour is faithful exactly if it is no longer than the path between its cells. -/
theorem faithful_iff {tour : List Point} :
    m.Faithful tour ↔ m.pathLength tour = m.pathLength (tour.map m.normalize) := by
  constructor
  · intro h
    rw [← length_expandMoves, ← length_expandMoves, h.expandMoves_eq]
  · intro h
    unfold Faithful
    induction tour with
    | nil => exact List.IsChain.nil
    | cons p r ih =>
      cases r with
      | nil => exact List.IsChain.singleton p
      | cons q r =>
        have hleg := distance_normalize_le (m := m) p q
        have hrest := pathLength_normalize_le (m := m) (q :: r)
        rw [List.map_cons, List.map_cons, pathLength_cons_cons, pathLength_cons_cons,
          ← List.map_cons] at h
        exact List.IsChain.cons_cons (displacement_normalize_of_le (by omega)) (ih (by omega))

theorem normalize_eq_self_iff {p : Point} : m.normalize p = p ↔ m.Contains p :=
  ⟨fun h => h ▸ m.contains_normalize p, m.normalize_of_contains⟩

end Metric

/-! ## Figures of compiled tours -/

namespace Grid

section

variable [Memory] {config : GridConfig} {c : Canvas config}

theorem segments?_eq_ok {tour : List Point} {segments : List (List Point)} :
    segments? config tour = .ok segments ↔
      config.ensureWalk tour = .ok () ∧ config.segments tour = segments := by
  unfold segments?
  rw [bind_eq_ok]
  simp only [pure_eq_ok]
  exact ⟨fun ⟨(), h, h'⟩ => ⟨h, h'⟩, fun ⟨h, h'⟩ => ⟨(), h, h'⟩⟩

theorem draw_eq_ok {tour : List Point} {theme : Theme} {title : Option Text} {drawing : Drawing}
    {g : Grid config} :
    (draw tour theme title).runOn ⟨some c⟩ = (.ok drawing, g) ↔
      config.ensureWalk tour = .ok () ∧ drawing = Drawing.ofTour c tour theme title ∧
        g = ⟨some c⟩ := by
  unfold draw snapshot
  rw [Procedure.runOn_bind_of_eq_ok (runOn_requireCells c), Procedure.runOn_ofExcept_bind_eq_ok]
  simp only [Procedure.runOn_pure, Prod.mk.injEq, Except.ok.injEq, eq_comm (a := drawing),
    eq_comm (a := g)]
  exact ⟨fun ⟨⟨⟩, h, h'⟩ => ⟨h, h'⟩, fun ⟨h, h'⟩ => ⟨⟨⟩, h, h'⟩⟩

theorem lines_ofTour (tour : List Point) (theme : Theme) (title : Option Text) :
    (Drawing.ofTour c tour theme title).lines.map (·.cells) = config.segments tour := by
  unfold Drawing.ofTour
  rw [List.map_map]
  exact List.map_id _

theorem marks_ofTour (start : Point) (others : List Point) (theme : Theme) (title : Option Text) :
    (Drawing.ofTour c (start :: others) theme title).marks.map (·.point) =
      [start, (start :: others).getLast (List.cons_ne_nil start others)] := by
  show [start, (start :: others).getLastD start] = _
  rw [List.getLastD_eq_getLast?, List.getLast?_eq_some_getLast, Option.getD_some]

/-- The replay of a compiled tour begins with the moves between the cells of its points. -/
theorem take_trail_replay (hcolors : ∀ p, config.Contains p → 0 ≤ c.get p) {start p : Point}
    {r : List Point} (hstart : p = config.normalize start) (h : ∀ q ∈ p :: r, config.Contains q)
    {heading : Direction} {offset limit : Int} (h0 : 0 ≤ offset) {stopAfterDone : Bool}
    (hlimit : (emitted c p r heading offset stopAfterDone).program.ruleCount ≤ limit)
    (canvas : Canvas config) :
    ∃ replay g, ((emitted c p r heading offset stopAfterDone).program.replay start offset
        limit).runOn ⟨some canvas⟩ = (.ok replay, g) ∧
      replay.trail.take ((emitted c p r heading offset stopAfterDone).pathMoves + 1) =
        config.track p (config.expandMoves (p :: r)) := by
  rw [ruleCount_emitted c h] at hlimit
  have hreplay := Program.replay_of_performs hstart (emitted_performs c h heading offset
    stopAfterDone h0) (fun q hq => ⟨hcolors q hq, c.fitsWord_get q⟩)
    (nextRule_emitted c h heading offset stopAfterDone h0) hlimit canvas
  refine ⟨_, _, hreplay, ?_⟩
  rw [← Metric.track_eq_concat, pathMoves_emitted c h, ← Metric.length_expandMoves]
  exact Metric.take_track_append p _ _

/-- The segments of a tour are the walk between its cells exactly if the tour is no longer than that
walk and there is memory for the walk. -/
theorem flatten_segments_iff (c : Canvas config) {start p : Point} {others r : List Point}
    (hcells : (start :: others).map config.normalize = p :: r) :
    (config.ensureWalk (start :: others) = .ok () ∧
        (config.segments (start :: others)).flatten =
          config.track p (config.expandMoves (p :: r))) ↔
      config.pathLength (start :: others) = config.pathLength (p :: r) ∧
        config.pathLength (p :: r) < Memory.words := by
  have hstart : config.normalize start = p := (List.cons.inj hcells).1
  rw [Metric.flatten_segments, hstart, Metric.ensureWalk_eq_ok_iff c.fits.measurable]
  constructor
  · rintro ⟨hfits, hwalk⟩
    have hlength := congrArg List.length hwalk
    rw [Metric.length_track, Metric.length_track, Metric.length_expandMoves,
      Metric.length_expandMoves] at hlength
    have hequal := Nat.add_right_cancel hlength
    exact ⟨hequal, hequal ▸ hfits⟩
  · rintro ⟨hlength, hfits⟩
    have hfaithful : config.Faithful (start :: others) := by
      rw [Metric.faithful_iff, hcells, hlength]
    refine ⟨hlength ▸ hfits, ?_⟩
    rw [← hfaithful.expandMoves_eq, hcells]

/-- The walk that is drawn is the beginning of the trail of the program that is compiled, exactly if
the path through the points as they are given is as long as the path of the program and there is
memory for the walk. It is as long on a torus, and for cells on any board. The marks stand on the
first and the last cell of the walk exactly if the ends of the tour are cells. -/
theorem drawn_iff_compiled (hcolors : ∀ p, config.Contains p → 0 ≤ c.get p) {start : Point}
    {others : List Point} {heading : Direction} {offset : Int} {stopAfterDone : Bool}
    {result : Compiled} {g : Grid config}
    (h : (compileTour ((start :: others).map Stop.point) heading offset stopAfterDone).runOn
      ⟨some c⟩ = (.ok result, g)) {limit : Int} (hlimit : result.program.ruleCount ≤ limit) :
    ∃ blank replay final walked, g.blankCopy = .ok blank ∧
      (result.program.replay start offset limit).runOn blank = (.ok replay, final) ∧
      walked = replay.trail.take (result.pathMoves + 1) ∧
      ((∃ segments, segments? config (start :: others) = .ok segments ∧
        segments.flatten = walked) ↔ config.pathLength (start :: others) = result.pathMoves ∧
          result.pathMoves < Memory.words) ∧
      (config.looping ∨ (∀ p ∈ start :: others, config.Contains p) →
        config.pathLength (start :: others) = result.pathMoves) ∧
      ∀ theme title,
        ((∃ drawing, (draw (start :: others) theme title).runOn g = (.ok drawing, g) ∧
            (drawing.lines.map (·.cells)).flatten = walked) ↔
          config.pathLength (start :: others) = result.pathMoves ∧
            result.pathMoves < Memory.words) ∧
        ∀ drawing, (draw (start :: others) theme title).runOn g = (.ok drawing, g) →
          (drawing.marks.map (some ·.point) = [walked.head?, walked.getLast?] ↔
            config.Contains start ∧
              config.Contains ((start :: others).getLast (List.cons_ne_nil start others))) := by
  obtain ⟨p, r, hcells, h0, -, rfl, rfl⟩ := compileTour_eq_ok h
  have hcontains := GridConfig.contains_of_map_normalize hcells
  have hstart : p = config.normalize start := (List.cons.inj hcells).1.symm
  have hgoal : (p :: r).getLast (List.cons_ne_nil p r) =
      config.normalize ((start :: others).getLast (List.cons_ne_nil start others)) := by
    simp only [← hcells, List.getLast_map]
  have hdrawn := flatten_segments_iff c hcells
  obtain ⟨replay, final, hreplay, htrail⟩ := take_trail_replay hcolors hstart hcontains h0 hlimit
    c.cleared
  rw [← pathMoves_emitted c hcontains heading offset stopAfterDone, ← htrail] at hdrawn
  refine ⟨⟨some c.cleared⟩, replay, final, _, rfl, hreplay, rfl, ?_, ?_, fun theme title => ⟨?_, ?_⟩⟩
  · rw [← hdrawn]
    simp only [segments?_eq_ok]
    exact ⟨fun ⟨_, ⟨hok, heq⟩, hwalk⟩ => ⟨hok, heq ▸ hwalk⟩,
      fun ⟨hok, hwalk⟩ => ⟨_, ⟨hok, rfl⟩, hwalk⟩⟩
  · intro htravels
    rw [pathMoves_emitted c hcontains, ← hcells]
    exact Metric.faithful_iff.1 (Metric.faithful_of_travels htravels)
  · rw [← hdrawn]
    simp only [draw_eq_ok]
    constructor
    · rintro ⟨_, ⟨hok, rfl, -⟩, hwalk⟩
      rw [lines_ofTour] at hwalk
      exact ⟨hok, hwalk⟩
    · rintro ⟨hok, hwalk⟩
      refine ⟨_, ⟨hok, rfl, trivial⟩, ?_⟩
      rw [lines_ofTour, hwalk]
  · intro drawing hdrawing
    obtain ⟨-, rfl, -⟩ := draw_eq_ok.1 hdrawing
    have hmarks := congrArg (List.map some) (marks_ofTour (c := c) start others theme title)
    rw [List.map_map] at hmarks
    have hnormal (q : Point) : q = config.normalize q ↔ config.Contains q :=
      eq_comm.trans Metric.normalize_eq_self_iff
    rw [htrail, Metric.head?_track, Metric.getLast?_track, Metric.follow_expandMoves hcontains,
      hgoal, hstart]
    exact (Eq.congr_left hmarks).trans (by simp [hnormal])

end

/-- A torus of four columns and two rows. -/
def ring : Metric := ⟨4, 2, strip.cols_pos, strip.rows_pos, true⟩

/-- The torus with paint in one cell. -/
def stain : Canvas ⟨ring, false⟩ := (Canvas.blank (by decide)).set ⟨1, 0⟩ 2

/-- The compilation of a tour between points that lie off the torus. -/
def compiledRound : Except Error Compiled × Grid ⟨ring, false⟩ :=
  (compileTour (([⟨-1, 3⟩, ⟨5, 0⟩] : List Point).map Stop.point) .up 2 true).runOn ⟨some stain⟩

theorem drawn_iff_compiled_round :
    (∀ p, ring.Contains p → 0 ≤ stain.get p) ∧
    ∃ result g, compiledRound = (.ok result, g) ∧
      ∃ blank replay final walked, g.blankCopy = .ok blank ∧
        (result.program.replay ⟨-1, 3⟩ 2 result.program.ruleCount).runOn blank =
          (.ok replay, final) ∧
        walked = replay.trail.take (result.pathMoves + 1) ∧
        ∃ segments, segments? ⟨ring, false⟩ [⟨-1, 3⟩, ⟨5, 0⟩] = .ok segments ∧
          segments.flatten = walked := by
  have hcolors : ∀ p, ring.Contains p → 0 ≤ stain.get p := by
    have hall : ∀ p ∈ GridConfig.points ⟨ring, false⟩, 0 ≤ stain.get p := by decide +kernel
    exact fun p hp => hall p ((GridConfig.mem_points _).2 hp)
  have hmoves : compiledRound.1.toOption.map (·.pathMoves) = some 3 := by decide +kernel
  rcases h : compiledRound with ⟨_ | result, g⟩
  · rw [h] at hmoves
    cases hmoves
  · rw [h] at hmoves
    have hcount : result.pathMoves = 3 := Option.some.inj hmoves
    have hfits : result.pathMoves < Memory.words := by
      rw [hcount]
      decide
    obtain ⟨blank, replay, final, walked, hblank, hreplay, hwalked, hsegments, htravels, -⟩ :=
      drawn_iff_compiled hcolors h (Int.le_refl _)
    exact ⟨hcolors, result, g, rfl, blank, replay, final, walked, hblank, hreplay, hwalked,
      hsegments.2 ⟨htravels (Or.inl rfl), hfits⟩⟩

/-- The compilation of a tour that ends beside the strip. -/
def compiledPast : Except Error Compiled × Grid ⟨strip, false⟩ :=
  (compileTour (([⟨0, 0⟩, ⟨6, 0⟩] : List Point).map Stop.point) .right 1 false).runOn ⟨some spot⟩

/-- Beside a bounded board the drawn walk goes on, on the last cell, after the program has arrived
there, and the mark of the end is off the board. -/
theorem drawn_past_the_edge :
    ∃ result blank replay final, compiledPast = (.ok result, ⟨some spot⟩) ∧
      (⟨some spot⟩ : Grid ⟨strip, false⟩).blankCopy = .ok blank ∧
      (result.program.replay ⟨0, 0⟩ 1 result.program.ruleCount).runOn blank =
        (.ok replay, final) ∧
      replay.trail.take (result.pathMoves + 1) = [⟨0, 0⟩, ⟨1, 0⟩, ⟨2, 0⟩, ⟨3, 0⟩] ∧
      segments? ⟨strip, false⟩ [⟨0, 0⟩, ⟨6, 0⟩] =
        .ok [[⟨0, 0⟩, ⟨1, 0⟩, ⟨2, 0⟩, ⟨3, 0⟩, ⟨3, 0⟩, ⟨3, 0⟩, ⟨3, 0⟩]] ∧
      ∀ theme title, ∃ drawing,
        (draw [⟨0, 0⟩, ⟨6, 0⟩] theme title).runOn (⟨some spot⟩ : Grid ⟨strip, false⟩) =
          (.ok drawing, ⟨some spot⟩) ∧
        drawing.marks.map (·.point) = [⟨0, 0⟩, ⟨6, 0⟩] :=
  ⟨emitted spot ⟨0, 0⟩ [⟨3, 0⟩] .right 1 false, ⟨some spot.cleared⟩,
    ⟨⟨3, 0⟩, 5, 6, .missingState, [⟨0, 0⟩, ⟨1, 0⟩, ⟨2, 0⟩, ⟨3, 0⟩, ⟨2, 0⟩, ⟨3, 0⟩]⟩, ⟨some spot⟩,
    rfl, rfl, rfl, rfl, rfl, fun _ _ => ⟨_, rfl, rfl⟩⟩

end Grid
end Turmite
