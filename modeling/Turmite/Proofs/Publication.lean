import Turmite.Proofs.CompileStages
import Turmite.Proofs.FileStore
import Turmite.Proofs.RuleTables

/-!
# What a compilation leaves in files

The document of a program is written before its rule table, and nothing is taken back. So both are
written or none of them is, unless the table is refused when the document is there already
(`CompileCommand.run_writes`): a number of the program is too large for a table although it is not
for a document, or the path of the table takes none although that of the document takes a text.
-/

namespace Turmite

theorem Grid.exists_canvas_of_load? [Memory] {files : Files} {path : Path} {looping : Option Bool}
    {config : GridConfig} {grid : Grid config}
    (h : Grid.load? files path looping = .ok ⟨config, grid⟩) : ∃ c, grid = ⟨some c⟩ := by
  unfold Grid.load? at h
  obtain ⟨⟨table, loops⟩, -, h⟩ := bind_eq_ok.1 h
  unfold Grid.ofTable? at h
  simp only at h
  split at h
  · obtain ⟨_, -, h⟩ := bind_eq_ok.1 h
    obtain ⟨config', -, h⟩ := bind_eq_ok.1 h
    obtain ⟨grid', hgrid, h⟩ := bind_eq_ok.1 h
    obtain ⟨c, -, hc⟩ := bind_eq_ok.1 hgrid
    obtain rfl := pure_eq_ok.1 hc
    cases pure_eq_ok.1 h
    exact ⟨c, rfl⟩
  · cases h

namespace Program

variable {p : Program} {path : Path} {metadata : Json} {f g : Files} {result : Except Error Unit}

/-- A document is written, or no file is: because it has no text, or because of the path and the
files that are there. -/
theorem writeDocument_cases (h : (p.writeDocument path metadata).runOn f = (result, g)) :
    (∃ e, result = .error e ∧ f.Extends g ∧
        (p.documentChars? .standard metadata = .error e ∨ f.Refuses Files.write path e)) ∨
      result = .ok () ∧ f.SameBut g path ∧ ∃ chars,
        p.documentChars? .standard metadata = .ok chars ∧ g.Holds path (.text chars) := by
  unfold writeDocument at h
  rcases hchars : p.documentChars? .standard metadata with cause | chars
  · rw [hchars] at h
    obtain ⟨e, made, hrun, hmade, hcause⟩ :=
      Files.runOn_save_error f path cause (fun chars => Files.write path (.text chars)) Files.write
    obtain ⟨rfl, rfl⟩ := Prod.mk.inj (hrun.symm.trans h)
    exact .inl ⟨e, rfl, hmade, hcause.imp_left fun heq => congrArg Except.error heq.symm⟩
  · rw [hchars] at h
    rcases Files.runOn_save_cases f path (.text chars) with
      ⟨e, made, hrun, hmade, hrefuses⟩ | ⟨made, hrun, hmade, hholds⟩
    · obtain ⟨rfl, rfl⟩ := Prod.mk.inj (hrun.symm.trans h)
      exact .inl ⟨e, rfl, hmade, .inr hrefuses⟩
    · obtain ⟨rfl, rfl⟩ := Prod.mk.inj (hrun.symm.trans h)
      exact .inr ⟨rfl, hmade, chars, rfl, hholds⟩

/-- A rule table is written, or no file is: because the numbers do not fit, or because of the path
and the files that are there. -/
theorem writeTable_cases (hplain : Address.resembles path.toText = false) (hsound : path.IsSound)
    (h : (p.writeTable path).runOn f = (result, g)) :
    (∃ e, result = .error e ∧ f.Extends g ∧
        (e = .overflow ∧ p.rows.all RuleRow.fits = false ∨ f.Refuses Files.writeTable path e)) ∨
      result = .ok () ∧ f.SameBut g path ∧ p.rows.all RuleRow.fits = true ∧
        g.Holds path (.table (RuleRow.columns p.rows)) := by
  unfold writeTable table? at h
  by_cases hfits : p.rows.all RuleRow.fits = true
  · rw [if_pos hfits] at h
    rcases Files.runOn_saveTable_cases f path (RuleRow.columns p.rows) with
      ⟨e, made, hrun, hmade, hrefuses⟩ | ⟨made, place, hrun, hmade, hplace⟩
    · obtain ⟨rfl, rfl⟩ := Prod.mk.inj (hrun.symm.trans h)
      exact .inl ⟨e, rfl, hmade, .inr hrefuses⟩
    · obtain ⟨rfl, rfl⟩ := Prod.mk.inj (hrun.symm.trans h)
      have hlocate := Files.locate?_of_tablePlace? hplain hsound hplace
      exact .inr ⟨rfl, Files.sameBut_put hmade hlocate _, hfits, Files.holds_put hlocate _⟩
  · rw [if_neg hfits] at h
    obtain ⟨e, made, hrun, hmade, hcause⟩ := Files.runOn_save_error f path .overflow
      (fun rows => Files.writeTable path (RuleRow.columns rows)) Files.writeTable
    obtain ⟨rfl, rfl⟩ := Prod.mk.inj (hrun.symm.trans h)
    exact .inl ⟨e, rfl, hmade, hcause.imp_left fun heq => ⟨heq, Bool.eq_false_iff.2 hfits⟩⟩

end Program

namespace CompileCommand

theorem isSound_outDir_of_ofUsage? {usage : Usage} {document : Json} {settings : Settings}
    (h : Settings.ofUsage? usage document = .ok settings) :
    settings.outDir.IsSound := by
  unfold Settings.ofUsage? at h
  obtain ⟨_, -, h⟩ := bind_eq_ok.1 h
  obtain ⟨grid, -, h⟩ := bind_eq_ok.1 h
  cases grid with
  | none => cases h
  | some grid =>
    -- All settings but this one are passed over.
    repeat obtain ⟨_, -, h⟩ := bind_eq_ok.1 h
    obtain rfl := pure_eq_ok.1 h
    exact Path.isSound_ofText _

section

variable [Memory] {files : Files} {arguments : List Text} {job : Job}

/-- What is asked for has cells, and results below a path that was read from a text. -/
theorem ofArguments?_eq_ok (h : Job.ofArguments? files arguments = .ok job) :
    (∃ c, job.grid = ⟨some c⟩) ∧ job.settings.outDir.IsSound := by
  unfold Job.ofArguments? at h
  split at h
  · cases h
  · split_ifs at h
    obtain ⟨document, -, h⟩ := bind_eq_ok.1 h
    obtain ⟨settings, hsettings, h⟩ := bind_eq_ok.1 (mapError_eq_ok.1 h)
    obtain ⟨constants, -, h⟩ := bind_eq_ok.1 h
    obtain ⟨⟨config, grid⟩, hgrid, h⟩ := bind_eq_ok.1 h
    obtain rfl := pure_eq_ok.1 h
    exact ⟨Grid.exists_canvas_of_load? hgrid, isSound_outDir_of_ofUsage? hsettings⟩

/-! ## Results -/

/-- The results of a job do not take each other's places. -/
theorem apart_results (job : Job) :
    Files.Apart job.documentPath job.tablePath ∧ Files.Apart job.documentPath job.figurePath ∧
      Files.Apart job.tablePath job.figurePath := by
  have hdocument : job.documentPath.EndsWith (".json" : Text) :=
    Path.endsWith_child _ _ (by decide) (by decide)
  have htable : job.tablePath.EndsWith ("_rules.parquet" : Text) :=
    Path.endsWith_child _ _ (by decide) (by decide)
  have hfigure : job.figurePath.EndsWith ("_tour.png" : Text) :=
    Path.endsWith_child _ _ (by decide) (by decide)
  refine ⟨?_, ?_, ?_⟩
  · exact Files.apart_of_endsWith hdocument htable (by decide) (by decide) (by decide)
  · exact Files.apart_of_endsWith hdocument hfigure (by decide) (by decide) (by decide)
  · exact Files.apart_of_endsWith htable hfigure (by decide) (by decide) (by decide)

theorem isSound_tablePath (h : job.settings.outDir.IsSound) : job.tablePath.IsSound :=
  (h.child _).child _

/-- A figure is written at its own path, if it is. -/
theorem sameBut_writeFigure (job : Job) (compiled : Compiled) (w : Workspace) :
    w.files.SameBut ((job.writeFigure compiled).runOn w).2.files job.figurePath := by
  have hsame := (Files.Extends.refl w.files).sameBut job.figurePath
  unfold Job.writeFigure
  by_cases hrender : job.settings.render
  · rw [if_pos hrender]
    simp only
    rw [Command.ofExcept_eq_lift, Command.runOn_bind, Command.runOn_lift]
    rcases ((Grid.draw compiled.tour Theme.standard (some job.settings.name)).runOn job.grid).1
      with e | drawing
    · exact hsame
    · simp only [mapError_ok]
      have hwrite := Files.sameBut_write w.files job.figurePath (.picture drawing)
      rw [Command.runOn_bind, Command.runOn_onFiles]
      rcases hrun : (Files.write job.figurePath (.picture drawing)).runOn w.files with ⟨e | _, g⟩
      · rw [hrun] at hwrite
        exact hwrite
      · rw [hrun] at hwrite
        exact hwrite
  · rw [if_neg hrender]
    exact hsame

namespace Prepared

/-- The document of a program is there and is read as the program. -/
def Documented (p : Prepared) (files : Files) : Prop :=
  ∃ chars, files.readText? p.job.documentPath = .ok chars ∧
    Program.ofChars? .standard chars = .ok p.compiled.program

/-- The rule table of a program is there, with its rules state by state. -/
def Tabulated (p : Prepared) (files : Files) : Prop :=
  files.readTable? p.job.tablePath = .ok (RuleRow.columns p.compiled.program.rows)

/-- What publishing a program leaves: no file more, or the document and the table, or the document
alone. A figure that cannot be written takes none of them back. -/
theorem publish_writes {p : Prepared} {w v : Workspace} {result : Except Failure Summary}
    (hplain : Address.resembles p.job.tablePath.toText = false)
    (hsound : p.job.settings.outDir.IsSound)
    (hread : ∀ chars, p.compiled.program.documentChars? .standard (p.job.metadata p.compiled) =
      .ok chars → Program.ofChars? .standard chars = .ok p.compiled.program)
    (h : p.publish.runOn w = (result, v)) :
    (∃ cause, result = .error (.error cause) ∧ w.files.Extends v.files ∧
      (p.compiled.program.documentChars? .standard (p.job.metadata p.compiled) = .error cause ∨
        w.files.Refuses Files.write p.job.documentPath cause)) ∨
    p.Documented v.files ∧
      (p.Tabulated v.files ∧ p.compiled.program.rows.all RuleRow.fits = true ∨
        ∃ cause, result = .error (.error cause) ∧ w.files.SameBut v.files p.job.documentPath ∧
          (cause = .overflow ∧ p.compiled.program.rows.all RuleRow.fits = false ∨
            ∃ f : Files, f.Extends v.files ∧
              f.Refuses Files.writeTable p.job.tablePath cause)) := by
  have htablePath := isSound_tablePath hsound
  obtain ⟨hdt, hdf, htf⟩ := apart_results p.job
  unfold publish at h
  rw [Command.runOn_bind, Command.runOn_onFiles] at h
  rcases hdocument : (p.compiled.program.writeDocument p.job.documentPath
    (p.job.metadata p.compiled)).runOn w.files with ⟨written, f⟩
  rw [hdocument] at h
  rcases Program.writeDocument_cases hdocument with
    ⟨e, rfl, hf, hcause⟩ | ⟨rfl, hf, chars, hchars, hd⟩
  · obtain ⟨rfl, rfl⟩ := Prod.mk.inj h
    exact .inl ⟨e, rfl, hf, hcause⟩
  · right
    have hprogram := hread chars hchars
    simp only [mapError_ok] at h
    rw [Command.runOn_bind, Command.runOn_onFiles] at h
    rcases htable : (p.compiled.program.writeTable p.job.tablePath).runOn f with ⟨written, g⟩
    simp only at h
    rw [htable] at h
    rcases Program.writeTable_cases hplain htablePath htable with
      ⟨e, rfl, hg, hcause⟩ | ⟨rfl, hg, hfits, ht⟩
    · obtain ⟨rfl, rfl⟩ := Prod.mk.inj h
      refine ⟨⟨chars, ?_, hprogram⟩, .inr ⟨e, rfl, hf.trans_extends hg, ?_⟩⟩
      · exact ((hg.sameBut p.job.tablePath).holds hdt hd).readText?
      · exact hcause.imp_right fun hrefuses => ⟨f, hg, hrefuses⟩
    · simp only [mapError_ok] at h
      rw [Command.runOn_bind] at h
      have hfigure := sameBut_writeFigure p.job p.compiled { w with files := g }
      have hv : v = ((p.job.writeFigure p.compiled).runOn { w with files := g }).2 := by
        rcases hrun : (p.job.writeFigure p.compiled).runOn { w with files := g } with ⟨_ | _, u⟩
        · rw [hrun] at h
          exact (Prod.mk.inj h).2.symm
        · rw [hrun] at h
          exact (Prod.mk.inj h).2.symm
      rw [← hv] at hfigure
      refine ⟨⟨chars, ?_, hprogram⟩, .inl ⟨?_, hfits⟩⟩
      · exact (hfigure.holds hdf (hg.holds hdt hd)).readText?
      · exact (hfigure.holds htf ht).readTable? hplain htablePath

end Prepared

theorem isEncodable_texts_metadata (job : Job) (compiled : Compiled) :
    ∀ t ∈ (job.metadata compiled).texts, t.IsEncodable := by
  simp [Job.metadata, Json.object, Json.texts, Json.memberTexts]

theorem mem_integers_metadata {n : Int} (job : Job) (compiled : Compiled) :
    n ∈ (job.metadata compiled).integers ↔ n = job.config.cols ∨ n = job.config.rows ∨
      n = job.settings.config.stateOffset ∨ n = compiled.nextState := by
  simp [Job.metadata, Json.object, Json.integers, Json.memberIntegers]

namespace Job

variable {c : Canvas job.config} {clock : Clock} {compiled : Compiled}
  (hgrid : job.grid = ⟨some c⟩) (h : (job.compiled clock).1 = .ok compiled)

include hgrid h

theorem runOn_bench : (Bench.compile (job.settings.start.map Stop.point)
    (job.settings.finish.map Stop.point) job.settings.heading job.settings.config).runOn
      ⟨⟨some c⟩, clock⟩ = (.ok compiled, (job.compiled clock).2) := by
  rw [← hgrid, ← h]
  rfl

/-- A compiled program is read from its document. -/
theorem ofChars?_of_compiled {chars : List Char}
    (hchars : compiled.program.documentChars? .standard (job.metadata compiled) = .ok chars) :
    Program.ofChars? .standard chars = .ok compiled.program :=
  Program.ofChars?_documentChars? (Bench.isRegular_of_compile (runOn_bench hgrid h))
    (isEncodable_texts_metadata job compiled) hchars

/-- The rows of a compiled program fit a table if its last number does. -/
theorem fits_rows_of_compiled : compiled.program.rows.all RuleRow.fits = true ↔
    lastNumber job.settings.config.stopAfterDone compiled.nextState ≤ Int64.maxValue.toInt := by
  obtain ⟨p, r, hcontains, hprogram, hnext⟩ :=
    Bench.exists_emitted_of_compile (runOn_bench hgrid h)
  rw [hprogram, hnext]
  exact Grid.fits_rows_emitted c hcontains _ (Int.natCast_nonneg _) _

/-- The document of a compiled program is refused if the next free state is too long a number. -/
theorem documentChars?_of_compiled {e : Error}
    (he : compiled.program.documentChars? .standard (job.metadata compiled) = .error e) :
    e = .integerTooLong ∧ Program.firstTooLong ≤ compiled.nextState := by
  have hrun := runOn_bench hgrid h
  have hdepth : ∀ most ∈ Limits.standard.depth,
      (compiled.program.toDocument (job.metadata compiled)).depth ≤ most := by
    intro most hmost
    obtain rfl := Option.some.inj hmost
    have hmetadata : (job.metadata compiled).depth ≤ 3 := Nat.le_add_left 1 2
    exact (Program.depth_toDocument_le hmetadata).trans (by decide)
  obtain ⟨hcause, hlong⟩ :=
    Program.documentChars?_eq_error (isEncodable_texts_metadata job compiled) hdepth he
  refine ⟨hcause, Int.not_lt.1 fun hshort => hlong ?_⟩
  have hnumbers := Bench.isWritable_of_compile hrun hshort
  have hoffset := Bench.offset_le_nextState hrun
  have hsize : Nat.pow 2 60 < Program.firstTooLong := Nat.lt_of_lt_of_le (by decide)
    (Nat.le_of_lt (Program.natAbs_lt_firstTooLong (n := Int64.maxValue.toInt) (by decide)))
  have hcols := c.fits.cols_lt
  have hrows := c.fits.rows_lt
  have hstates : compiled.program.states.all (Json.isWritable .standard) = true :=
    Program.all_states_of_hasWritableNumbers (Program.hasWritableNumbers_iff.2 hnumbers)
  refine ⟨hstates, List.all_eq_true.2 fun n hn => ?_⟩
  rcases (Program.mem_integers_toDocument rfl).1 hn with rfl | hn | hn
  · decide
  · rw [mem_integers_metadata] at hn
    rw [Program.isWritable_iff]
    omega
  · obtain ⟨entry, hentry, rule, hrule, hn⟩ := Program.mem_integers_toPayload.1 hn
    obtain ⟨hcolor, hnext⟩ := (hnumbers entry hentry).2 rule hrule
    rcases hn with rfl | rfl
    · exact hcolor
    · exact hnext

end Job

/-- What a run leaves, unless the path of the table begins like an address. Where no program is
prepared, no file is written. Else the files stay as they are because the document has no text, its
numbers being too long, or no path; or the document and the table are written, of the same rules; or
the run ends with an error and the document alone. This happens if the last number of the program
fits no word, or if the path of the table takes none. -/
theorem run_writes (arguments : List Text) {w v : Workspace} {result : Except Failure Summary}
    (hplain : ∀ job, Job.ofArguments? w.files arguments = .ok job →
      Address.resembles job.tablePath.toText = false)
    (h : (run arguments).runOn w = (result, v)) :
    (∃ e, ((prepare arguments).runOn w).1 = .error e ∧ result = .error e ∧ v.files = w.files) ∨
    ∃ p, ((prepare arguments).runOn w).1 = .ok p ∧
      ((∃ cause, result = .error (.error cause) ∧ v.files.entries = w.files.entries ∧
          (cause = .integerTooLong ∧ Program.firstTooLong ≤ p.compiled.nextState ∨
            w.files.Refuses Files.write p.job.documentPath cause)) ∨
        p.Documented v.files ∧
          let last := lastNumber p.job.settings.config.stopAfterDone p.compiled.nextState
          (p.Tabulated v.files ∧ last ≤ Int64.maxValue.toInt ∨
            ∃ cause, result = .error (.error cause) ∧
              w.files.SameBut v.files p.job.documentPath ∧
              (cause = .overflow ∧ Int64.maxValue.toInt < last ∨
                ∃ f : Files, f.Extends v.files ∧
                  f.Refuses Files.writeTable p.job.tablePath cause))) := by
  rw [run_eq, Command.runOn_bind] at h
  have hfiles := files_prepare arguments w
  rcases hprepare : (prepare arguments).runOn w with ⟨e | p, u⟩
  · rw [hprepare] at h hfiles
    obtain ⟨rfl, rfl⟩ := Prod.mk.inj h
    exact .inl ⟨e, rfl, rfl, hfiles⟩
  · rw [hprepare] at h hfiles
    simp only at h hfiles
    obtain ⟨hjob, -, hcompiled⟩ := prepare_eq_ok hprepare
    obtain ⟨⟨c, hgrid⟩, hsound⟩ := ofArguments?_eq_ok hjob
    refine .inr ⟨p, rfl, ?_⟩
    rw [← hfiles]
    rcases Prepared.publish_writes (hplain p.job hjob) hsound
        (fun _ => Job.ofChars?_of_compiled hgrid hcompiled) h with
      ⟨cause, hresult, hv, hcause⟩ | ⟨hdocument, hrest⟩
    · refine .inl ⟨cause, hresult, hv.entries, hcause.imp_left ?_⟩
      exact Job.documentChars?_of_compiled hgrid hcompiled
    · refine .inr ⟨hdocument, ?_⟩
      have hfits := Job.fits_rows_of_compiled hgrid hcompiled
      rcases hrest with ⟨htable, hrows⟩ | ⟨cause, hresult, hsame, hcause⟩
      · exact .inl ⟨htable, hfits.1 hrows⟩
      · refine .inr ⟨cause, hresult, hsame, hcause.imp_left fun ⟨hcause, hrows⟩ => ?_⟩
        refine ⟨hcause, Int.not_le.1 fun hle => ?_⟩
        rw [hfits.2 hle] at hrows
        cases hrows

end

/-- A store with a grid of two columns, of which one cell is painted. -/
def desk : Workspace where
  files := ⟨[("work" : Text)],
    [([("work" : Text), ("g.json" : Text)], .text "[[0,0],[1,0]]".toList)], []⟩
  clock := ⟨[1.0], 0⟩
  pauses := []

/-- Arguments to compile that grid to states from an offset on. -/
def argumentsFrom (offset : String) : List Text :=
  [("--grid" : Text), ("g.json" : Text), ("--start" : Text), ("0,0" : Text), ("--end" : Text),
    ("0,0" : Text), ("--name" : Text), ("demo" : Text), ("--out-dir" : Text), ("out" : Text),
    ("--state-offset" : Text), (offset : Text)]

/-- From state five on, the document and the table are written. -/
theorem run_writes_from_five :
    (∀ job, Job.ofArguments? desk.files (argumentsFrom "5") = .ok job →
      Address.resembles job.tablePath.toText = false) ∧
    ∃ summary v, ∃ p : Prepared, (run (argumentsFrom "5")).runOn desk = (.ok summary, v) ∧
      ((prepare (argumentsFrom "5")).runOn desk).1 = .ok p ∧ p.Documented v.files ∧
      p.Tabulated v.files := by
  have hplain : ∀ job, Job.ofArguments? desk.files (argumentsFrom "5") = .ok job →
      Address.resembles job.tablePath.toText = false := by
    have hpath : ((Job.ofArguments? desk.files (argumentsFrom "5")).toOption.any fun job =>
        Address.resembles job.tablePath.toText) = false := by decide +kernel
    intro job hjob
    rw [hjob] at hpath
    exact hpath
  have hok : ((run (argumentsFrom "5")).runOn desk).1.isOk = true := by decide +kernel
  rcases hrun : (run (argumentsFrom "5")).runOn desk with ⟨_ | summary, v⟩
  · rw [hrun] at hok
    cases hok
  · rcases run_writes (argumentsFrom "5") hplain hrun with ⟨_, -, h, -⟩ | ⟨p, hp, h⟩
    · cases h
    · rcases h with ⟨_, h, -⟩ | ⟨hdocument, ⟨htable, -⟩ | ⟨_, h, -⟩⟩
      · cases h
      · exact ⟨hplain, summary, v, p, rfl, hp, hdocument, htable⟩
      · cases h

/-- The files after a compilation from the greatest word on. -/
def filesFromGreatestWord : Files :=
  ((run (argumentsFrom "9223372036854775807")).runOn desk).2.files

/-- From the greatest word on, the document is written and the table is not: there is a file for the
program, and none for its rules. -/
theorem document_without_table :
    (∃ chars, filesFromGreatestWord.readText? (Path.ofText ("out/programs/demo.json" : Text)) =
      .ok chars) ∧
    filesFromGreatestWord.exists? (Path.ofText ("out/logs/demo_rules.parquet" : Text)) =
      .ok false := by
  have hdocument : (filesFromGreatestWord.readText?
      (Path.ofText ("out/programs/demo.json" : Text))).isOk = true := by decide +kernel
  have htable : (filesFromGreatestWord.exists?
      (Path.ofText ("out/logs/demo_rules.parquet" : Text))).toOption = some false := by
    decide +kernel
  constructor
  · rcases hchars : filesFromGreatestWord.readText?
      (Path.ofText ("out/programs/demo.json" : Text)) with _ | chars
    · rw [hchars] at hdocument
      cases hdocument
    · exact ⟨chars, rfl⟩
  · rcases hexists : filesFromGreatestWord.exists?
      (Path.ofText ("out/logs/demo_rules.parquet" : Text)) with _ | b
    · rw [hexists] at htable
      cases htable
    · rw [hexists] at htable
      exact congrArg Except.ok (Option.some.inj htable)

end CompileCommand
end Turmite
