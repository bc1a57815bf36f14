import Turmite.Files
import Turmite.Proofs.PathText
import Turmite.Proofs.Preservation

/-!
# Stores of files

Making directories leaves the files as they are, and writing a file changes what is at one place:
the one that the path leads to from then on. Directories never go away, so a path that leads to a
place leads there after any of this, and a file stays when another is written (`SameBut.holds`).
-/

namespace Turmite

namespace Procedure

variable {σ α β : Type} {I : σ → Prop}

theorem keeps_foldlM {f : β → α → Procedure σ β} (hf : ∀ b a, Keeps I (f b a)) (l : List α)
    (b : β) : Keeps I (l.foldlM f b) := by
  induction l generalizing b with
  | nil => exact keeps_pure b
  | cons a l ih =>
    rw [List.foldlM_cons]
    exact keeps_bind (hf b a) ih

end Procedure

namespace Files

open Procedure

/-- A store that starts where another does and has its directories. -/
structure Grows (f g : Files) : Prop where
  cwd : g.cwd = f.cwd
  isDirectory : ∀ place, f.isDirectory place = true → g.isDirectory place = true

/-- A store with the files of another and perhaps more directories. -/
structure Extends (f g : Files) : Prop extends Grows f g where
  entries : g.entries = f.entries

variable {f g h : Files} {place : Place} {path : Path} {content : FileContent}

theorem Grows.refl (f : Files) : f.Grows f := ⟨rfl, fun _ h => h⟩

theorem Grows.trans (hfg : f.Grows g) (hgh : g.Grows h) : f.Grows h :=
  ⟨hgh.cwd.trans hfg.cwd, fun place hp => hgh.isDirectory place (hfg.isDirectory place hp)⟩

theorem Extends.refl (f : Files) : f.Extends f := ⟨.refl f, rfl⟩

theorem Extends.trans (hfg : f.Extends g) (hgh : g.Extends h) : f.Extends h :=
  ⟨hfg.toGrows.trans hgh.toGrows, hgh.entries.trans hfg.entries⟩

theorem Extends.content?_eq (hfg : f.Extends g) (place : Place) :
    g.content? place = f.content? place := by
  unfold content?
  rw [hfg.entries]

theorem Grows.ensureDirectory {missing : Error} (hfg : f.Grows g)
    (h : f.ensureDirectory place missing = .ok ()) : g.ensureDirectory place missing = .ok () := by
  unfold Files.ensureDirectory at *
  by_cases hd : f.isDirectory place
  · rw [if_pos (hfg.isDirectory place hd)]
  · rw [if_neg hd] at h
    split at h <;> cases h

/-- A path that leads somewhere goes on leading there. -/
theorem Grows.locate? (hfg : f.Grows g) (h : f.locate? path = .ok place) :
    g.locate? path = .ok place := by
  unfold Files.locate? at *
  obtain ⟨_, husable, h⟩ := bind_eq_ok.1 h
  rw [hfg.cwd, husable]
  show List.foldlM _ _ _ = _
  generalize (if path.isAbsolute then [] else f.cwd) = start at h
  generalize path.parts = parts at h
  induction parts generalizing start with
  | nil => exact h
  | cons part parts ih =>
    rw [List.foldlM_cons] at h ⊢
    obtain ⟨next, hstep, hrest⟩ := bind_eq_ok.1 h
    obtain ⟨_, hensure, hstep⟩ := bind_eq_ok.1 hstep
    rw [hfg.ensureDirectory hensure]
    show (do Path.ensurePart part; pure (Path.climb start part)) >>= _ = _
    rw [hstep]
    exact ih next hrest

/-- The place of a path whose last component is no pair of dots ends in that component. -/
theorem getLast?_locate? {last : Text} (h : f.locate? path = .ok place)
    (hlast : path.parts.getLast? = some last) (hdots : last ≠ (".." : Text)) :
    place.getLast? = some last := by
  unfold Files.locate? at h
  obtain ⟨_, -, h⟩ := bind_eq_ok.1 h
  obtain ⟨parts, hparts⟩ := List.getLast?_eq_some_iff.1 hlast
  rw [hparts, List.foldlM_append] at h
  obtain ⟨above, -, h⟩ := bind_eq_ok.1 h
  rw [List.foldlM_cons] at h
  obtain ⟨_, hstep, hend⟩ := bind_eq_ok.1 h
  obtain rfl := pure_eq_ok.1 hend
  obtain ⟨_, -, hstep⟩ := bind_eq_ok.1 hstep
  obtain ⟨_, -, hstep⟩ := bind_eq_ok.1 hstep
  obtain rfl := pure_eq_ok.1 hstep
  unfold Path.climb
  rw [if_neg hdots, List.getLast?_concat]

/-! ## Directories -/

theorem extends_addDirectory (f : Files) (place : Place) :
    f.Extends { f with directories := f.directories ++ [place] } := by
  refine ⟨⟨rfl, fun other h => ?_⟩, rfl⟩
  simp only [isDirectory, List.any_append, Bool.or_eq_true] at h ⊢
  tauto

theorem keeps_makePart (f : Files) (isLast : Bool) (above : Place) (part : Text) :
    Keeps f.Extends (makePart isLast above part) := by
  unfold makePart
  refine keeps_ofExcept_bind fun _ _ => ?_
  intro g hg
  rw [runOn_bind_of_eq_ok (runOn_get g)]
  dsimp only
  split_ifs
  · exact hg
  · exact hg
  · exact hg
  · exact hg.trans (extends_addDirectory g _)

/-- Making directories keeps the files. -/
theorem keeps_makeDirectory (f : Files) (path : Path) :
    Keeps f.Extends (makeDirectory path) := by
  unfold makeDirectory
  refine keeps_ofExcept_bind fun _ _ => ?_
  refine keeps_bind keeps_get fun files => ?_
  refine keeps_bind (keeps_foldlM (fun _ _ => keeps_makePart f _ _ _) _ _) fun above => ?_
  exact keeps_bind (keeps_foldlM (fun _ _ => keeps_makePart f _ _ _) _ _) fun _ => keeps_pure _

/-! ## Files -/

/-- Entering a file over another looks up the same entry as before. -/
theorem find?_replace (entries : List (Place × FileContent)) (place other : Place)
    (content : FileContent) :
    (entries.map fun e => if e.1 = place then (place, content) else e).find? (·.1 = other) =
      (entries.find? (·.1 = other)).map fun e => if e.1 = place then (place, content) else e := by
  rw [List.find?_map]
  congr 2
  funext e
  simp only [Function.comp_apply]
  split_ifs with h
  · rw [h]
  · rfl

theorem content?_put_self (f : Files) (place : Place) (content : FileContent) :
    (f.put place content).content? place = some content := by
  unfold put
  split_ifs with h
  · unfold content? at h ⊢
    rw [find?_replace]
    rw [Option.isSome_map] at h
    obtain ⟨e, he⟩ := Option.isSome_iff_exists.1 h
    have hplace : e.1 = place := by simpa using List.find?_some he
    rw [he, Option.map_some, if_pos hplace]
    rfl
  · unfold content? at h ⊢
    rw [Option.isSome_map, Bool.not_eq_true, Option.isSome_eq_false_iff, Option.isNone_iff_eq_none]
      at h
    rw [List.find?_append, h]
    simp

theorem content?_put_of_ne {other : Place} (hne : other ≠ place) (f : Files)
    (content : FileContent) : (f.put place content).content? other = f.content? other := by
  unfold put
  split_ifs with h
  · unfold content?
    rw [find?_replace]
    rcases he : f.entries.find? (·.1 = other) with _ | e
    · rw [he]
      rfl
    · have hother : e.1 = other := by simpa using List.find?_some he
      rw [he, Option.map_some, if_neg (fun h => hne (hother.symm.trans h))]
  · unfold content?
    rw [List.find?_append]
    simp [Ne.symm hne]

theorem grows_put (f : Files) (place : Place) (content : FileContent) :
    f.Grows (f.put place content) := by
  unfold put
  split_ifs with h
  · refine ⟨rfl, fun other h => ?_⟩
    have hplace (e : Place × FileContent) :
        (if e.1 = place then (place, content) else e).1 = e.1 := by
      split_ifs with h
      · exact h.symm
      · rfl
    have hany : ((f.entries.map fun e => if e.1 = place then (place, content) else e).any
        fun e => other.isPrefixOf e.1.dropLast && other ≠ e.1) =
        f.entries.any fun e => other.isPrefixOf e.1.dropLast && other ≠ e.1 := by
      simp only [List.any_map, Function.comp_def, hplace]
    unfold isDirectory at h ⊢
    rw [hany]
    exact h
  · refine ⟨rfl, fun other h => ?_⟩
    simp only [isDirectory, List.any_append, Bool.or_eq_true] at h ⊢
    tauto

/-- The place where a file is written, below directories that are made. -/
def makePlace (path : Path) : Procedure Files Place := do
  makeDirectory path.parent
  let files ← get
  let place ← Procedure.ofExcept (files.locate? path)
  Procedure.require (!files.isDirectory place) .isDirectory
  pure place

theorem keeps_makePlace (f : Files) (path : Path) : Keeps f.Extends (makePlace path) := by
  unfold makePlace
  refine keeps_bind (keeps_makeDirectory f path.parent) fun _ => ?_
  refine keeps_bind keeps_get fun files => ?_
  refine keeps_ofExcept_bind fun place _ => ?_
  exact keeps_require_bind fun _ => keeps_pure place

/-- Where a file is written does not depend on what it holds. -/
theorem runOn_write (f : Files) (path : Path) (content : FileContent) :
    (write path content).runOn f =
      match (makePlace path).runOn f with
      | (.ok place, made) => (.ok (), made.put place content)
      | (.error e, made) => (.error e, made) := by
  unfold write makePlace
  rw [runOn_bind, runOn_bind]
  rcases (makeDirectory path.parent).runOn f with ⟨e | _, made⟩
  · rfl
  · simp only
    rw [runOn_bind_of_eq_ok (runOn_get made), runOn_bind_of_eq_ok (runOn_get made), runOn_bind,
      runOn_bind, runOn_ofExcept]
    rcases made.locate? path with e | place
    · rfl
    · simp only
      rcases made.isDirectory place with _ | _
      · rfl
      · rfl

theorem makePlace_eq_ok (h : (makePlace path).runOn f = (.ok place, g)) :
    f.Extends g ∧ g.locate? path = .ok place := by
  have hg := keeps_makePlace f path f (.refl f)
  rw [h] at hg
  refine ⟨hg, ?_⟩
  unfold makePlace at h
  obtain ⟨_, made, -, h⟩ := runOn_bind_eq_ok.1 h
  rw [runOn_bind_of_eq_ok (runOn_get made)] at h
  obtain ⟨place', hplace, h⟩ := runOn_ofExcept_bind_eq_ok.1 h
  obtain ⟨-, h⟩ := runOn_require_bind_eq_ok.1 h
  rw [runOn_pure] at h
  obtain ⟨hok, rfl⟩ := Prod.mk.inj h
  cases hok
  exact hplace

/-- An address of a scheme that nothing begins like names no file. -/
theorem file?_of_not_resembles {t t' : Text} {address : Address}
    (h : Address.ofText? t = some address) (hplain : Address.resembles t = false) :
    address.file? ≠ .ok t' := by
  unfold Address.ofText? at h
  unfold Address.resembles at hplain
  rcases hcut : Address.cut ':' t with ⟨scheme, _ | rest⟩
  · rw [hcut] at h
    cases h
  · rw [hcut] at h hplain
    simp only at h hplain
    split_ifs at h with hscheme
    obtain ⟨p, -, rfl⟩ := Option.map_eq_some_iff.1 h
    have hlength : ¬(2 ≤ scheme.length ∧ scheme.length ≤ 36) := by
      intro hlength
      simp [Address.shortestScheme, Address.longestScheme, hscheme, hlength] at hplain
    have hnot (s : String) (hs : 2 ≤ (s : Text).length ∧ (s : Text).length ≤ 36) :
        scheme ≠ (s : Text) := by
      rintro rfl
      exact hlength hs
    have hfile := hnot "file" (by decide)
    have hlocal := hnot "local" (by decide)
    have hmock := hnot "mock" (by decide)
    simp [Address.file?, Address.fileSchemes, Ne.symm hfile, Ne.symm hlocal, hmock]

/-- A path that begins like no address names its table itself. -/
theorem tablePath?_eq {t : Text} (hplain : Address.resembles path.toText = false)
    (h : f.tablePath? path = .ok t) : t = path.toText := by
  unfold tablePath? at h
  obtain ⟨_, -, h⟩ := bind_eq_ok.1 h
  split at h
  · exact (pure_eq_ok.1 h).symm
  · split at h
    · rename_i address haddress
      exact absurd h (file?_of_not_resembles haddress hplain)
    · obtain ⟨_, -, h⟩ := bind_eq_ok.1 h
      exact (pure_eq_ok.1 h).symm

/-- The place where the table of a path is written. -/
def tablePlace? (files : Files) (path : Path) : Except Error Place := do
  if let some fault := path.toText.encodingFault? (!·.isSurrogate) then
    .error (.unencodable fault)
  files.writablePlace? (← files.tablePath? path)

/-- Writing a table changes nothing but what is at its place. -/
theorem runOn_writeTable (f : Files) (path : Path) (columns : Table) :
    (writeTable path columns).runOn f =
      match f.tablePlace? path with
      | .ok place => (.ok (), f.put place (.table columns))
      | .error e => (.error e, f) := by
  unfold writeTable tablePlace?
  rcases path.toText.encodingFault? (!·.isSurrogate) with _ | fault
  · rw [runOn_bind_of_eq_ok (runOn_get f), runOn_bind, runOn_ofExcept]
    rcases f.tablePath? path with e | t
    · rfl
    · simp only
      rw [runOn_bind, runOn_ofExcept]
      show _ = match f.writablePlace? t with | .ok place => _ | .error e => _
      rcases f.writablePlace? t with e | place
      · rfl
      · rfl
  · rfl

theorem tablePlace?_eq_ok (h : f.tablePlace? path = .ok place) :
    ∃ t, f.tablePath? path = .ok t ∧ f.writablePlace? t = .ok place := by
  unfold tablePlace? at h
  split at h
  · cases h
  · exact bind_eq_ok.1 h

/-- The place where a file can be written that a text names is where the text leads. -/
theorem locate?_of_writablePlace? {t : Text} (h : f.writablePlace? t = .ok place) :
    f.locate? (Path.ofText t) = .ok place := by
  obtain ⟨_, -, h⟩ := bind_eq_ok.1 h
  obtain ⟨place', hplace, h⟩ := bind_eq_ok.1 h
  obtain ⟨_, -, h⟩ := bind_eq_ok.1 h
  have heq : place' = place := by
    split at h
    · obtain ⟨_, -, h⟩ := bind_eq_ok.1 h
      exact pure_eq_ok.1 h
    · exact pure_eq_ok.1 h
  exact heq ▸ hplace

theorem locate?_of_tablePlace? (hplain : Address.resembles path.toText = false)
    (hsound : path.IsSound) (h : f.tablePlace? path = .ok place) : f.locate? path = .ok place := by
  obtain ⟨t, ht, hplace⟩ := tablePlace?_eq_ok h
  obtain rfl := tablePath?_eq hplain ht
  rw [← hsound.ofText_toText]
  exact locate?_of_writablePlace? hplace

/-! ## What a path leads to -/

/-- A path leads to a file with a content. -/
def Holds (f : Files) (path : Path) (content : FileContent) : Prop :=
  ∃ place, f.locate? path = .ok place ∧ f.content? place = some content

theorem Holds.read? (h : f.Holds path content) : f.read? path = .ok content := by
  obtain ⟨place, hplace, hcontent⟩ := h
  unfold Files.read?
  refine bind_eq_ok.2 ⟨place, hplace, ?_⟩
  rw [hcontent]

theorem Holds.exists? (h : f.Holds path content) : f.exists? path = .ok true := by
  obtain ⟨place, hplace, hcontent⟩ := h
  unfold Files.exists?
  rw [hplace]
  simp only [hcontent]
  rfl

theorem Holds.readText? {chars : List Char} (h : f.Holds path (.text chars)) :
    f.readText? path = .ok chars := by
  unfold Files.readText?
  exact bind_eq_ok.2 ⟨_, h.read?, rfl⟩

theorem Holds.readTable? {columns : Table} (h : f.Holds path (.table columns))
    (hplain : Address.resembles path.toText = false) (hsound : path.IsSound) :
    f.readTable? path = .ok columns := by
  have hlocal : f.isLocal? path = .ok true := by
    unfold isLocal?
    rw [hplain]
    exact h.exists?
  have htable : f.tablePath? path = .ok path.toText := bind_eq_ok.2 ⟨true, hlocal, rfl⟩
  unfold Files.readTable?
  refine bind_eq_ok.2 ⟨_, htable, ?_⟩
  rw [hsound.ofText_toText]
  exact bind_eq_ok.2 ⟨_, h.read?, rfl⟩

/-- A store that differs from an earlier one in the file of a path and in directories. -/
structure SameBut (f g : Files) (path : Path) : Prop extends Grows f g where
  content? : ∀ place, g.locate? path ≠ .ok place → g.content? place = f.content? place

theorem Extends.sameBut (hfg : f.Extends g) (path : Path) : f.SameBut g path :=
  ⟨hfg.toGrows, fun place _ => hfg.content?_eq place⟩

theorem SameBut.trans_extends (hfg : f.SameBut g path) (hgh : g.Extends h) : f.SameBut h path where
  toGrows := hfg.toGrows.trans hgh.toGrows
  content? place hplace :=
    (hgh.content?_eq place).trans (hfg.content? place fun hg => hplace (hgh.toGrows.locate? hg))

/-- A file put where a path leads, among directories that have been made. -/
theorem sameBut_put (hfg : f.Extends g) (hplace : g.locate? path = .ok place)
    (content : FileContent) : f.SameBut (g.put place content) path where
  toGrows := hfg.toGrows.trans (g.grows_put place content)
  content? other hother := by
    have hne : other ≠ place := by
      rintro rfl
      exact hother ((g.grows_put other content).locate? hplace)
    rw [content?_put_of_ne hne, hfg.content?_eq]

theorem holds_put (hplace : f.locate? path = .ok place) (content : FileContent) :
    (f.put place content).Holds path content :=
  ⟨place, (f.grows_put place content).locate? hplace, f.content?_put_self place content⟩

/-- What begins like an address is not looked for among the files. -/
theorem tablePath?_of_resembles (haddress : Address.resembles path.toText = true) :
    f.tablePath? path = g.tablePath? path := by
  unfold tablePath? isLocal?
  rw [haddress]
  rfl

/-- A table that is put at the place of its path is read from there. -/
theorem readTable?_put {t : Text} (hsound : path.IsSound) (ht : f.tablePath? path = .ok t)
    (hplace : f.writablePlace? t = .ok place) (columns : Table) :
    (f.put place (.table columns)).readTable? path = .ok columns := by
  have hholds : (f.put place (.table columns)).Holds (Path.ofText t) (.table columns) :=
    holds_put (locate?_of_writablePlace? hplace) _
  cases hplain : Address.resembles path.toText with
  | true =>
    rw [tablePath?_of_resembles hplain] at ht
    exact bind_eq_ok.2 ⟨t, ht, bind_eq_ok.2 ⟨_, hholds.read?, rfl⟩⟩
  | false =>
    obtain rfl := tablePath?_eq hplain ht
    rw [hsound.ofText_toText] at hholds
    exact hholds.readTable? hplain hsound

/-- Writing a file changes nothing but what its path leads to. -/
theorem sameBut_write (f : Files) (path : Path) (content : FileContent) :
    f.SameBut ((write path content).runOn f).2 path := by
  have hmade := keeps_makePlace f path f (.refl f)
  rw [runOn_write]
  rcases hrun : (makePlace path).runOn f with ⟨e | place, made⟩
  · rw [hrun] at hmade
    exact hmade.sameBut path
  · exact sameBut_put (makePlace_eq_ok hrun).1 (makePlace_eq_ok hrun).2 content

/-- Two paths that lead to one place in no store. -/
def Apart (p q : Path) : Prop :=
  ∀ (f : Files) (place : Place), f.locate? p = .ok place → f.locate? q ≠ .ok place

/-- A file stays when another is written. -/
theorem SameBut.holds {p q : Path} (hfg : f.SameBut g q) (hpq : Apart p q)
    (h : f.Holds p content) : g.Holds p content := by
  obtain ⟨place, hplace, hcontent⟩ := h
  have hthere := hfg.toGrows.locate? hplace
  exact ⟨place, hthere, (hfg.content? place (hpq g place hthere)).trans hcontent⟩

theorem getLast?_locate?_of_endsWith {ending : Text} (hpath : path.EndsWith ending)
    (hlong : 2 < ending.length) (h : f.locate? path = .ok place) :
    ∃ front, place.getLast? = some (front ++ ending) := by
  obtain ⟨front, hfront⟩ := hpath
  refine ⟨front, getLast?_locate? h hfront fun hdots => ?_⟩
  have hlength := congrArg List.length hdots
  rw [List.length_append] at hlength
  have htwo : ((".." : Text)).length = 2 := rfl
  omega

/-- Paths whose last components end in different code points lead to different places. -/
theorem apart_of_endsWith {p q : Path} {a b : Text} (hp : p.EndsWith a) (hq : q.EndsWith b)
    (ha : 2 < a.length) (hb : 2 < b.length) (hab : a.getLast? ≠ b.getLast?) : Apart p q := by
  intro f place hplace hplace'
  obtain ⟨front, hfront⟩ := getLast?_locate?_of_endsWith hp ha hplace
  obtain ⟨front', hfront'⟩ := getLast?_locate?_of_endsWith hq hb hplace'
  have heq : front ++ a = front' ++ b := Option.some.inj (hfront.symm.trans hfront')
  have hlast := congrArg List.getLast? heq
  have hane : a ≠ [] := by
    rintro rfl
    exact absurd ha (by decide)
  have hbne : b ≠ [] := by
    rintro rfl
    exact absurd hb (by decide)
  rw [List.getLast?_append_of_ne_nil _ hane, List.getLast?_append_of_ne_nil _ hbne] at hlast
  exact hab hlast

/-- No file can be saved at a path, whatever it is to hold. -/
def Refuses {α : Type} (f : Files) (save : Path → α → Procedure Files Unit) (path : Path)
    (cause : Error) : Prop :=
  ∀ content, ((do makeDirectory path.parent; save path content).runOn f).1 = .error cause

/-- A path below a directory that cannot be made takes no file. -/
theorem refuses_of_makeDirectory {α : Type} {save : Path → α → Procedure Files Unit} {e : Error}
    (h : (makeDirectory path.parent).runOn f = (.error e, g)) : f.Refuses save path e := by
  intro content
  rw [runOn_bind, h]

/-- Directories may have been made for what turns out to have no content. -/
theorem runOn_save_error {α β : Type} (f : Files) (path : Path) (cause : Error)
    (write : β → Procedure Files Unit) (save : Path → α → Procedure Files Unit) :
    ∃ e g, (do makeDirectory path.parent; write (← Procedure.ofExcept (.error cause))).runOn f =
        (.error e, g) ∧
      f.Extends g ∧ (e = cause ∨ f.Refuses save path e) := by
  have hmade := keeps_makeDirectory f path.parent f (.refl f)
  rw [runOn_bind]
  rcases hrun : (makeDirectory path.parent).runOn f with ⟨e | _, made⟩
  · rw [hrun] at hmade
    exact ⟨e, made, rfl, hmade, .inr (refuses_of_makeDirectory hrun)⟩
  · rw [hrun] at hmade
    exact ⟨cause, made, rfl, hmade, .inl rfl⟩

/-- A file is written below directories that are made, unless no file can be saved at its path. -/
theorem runOn_save_cases (f : Files) (path : Path) (content : FileContent) :
    (∃ e g, (do makeDirectory path.parent; write path content).runOn f = (.error e, g) ∧
        f.Extends g ∧ f.Refuses write path e) ∨
      ∃ g, (do makeDirectory path.parent; write path content).runOn f = (.ok (), g) ∧
        f.SameBut g path ∧ g.Holds path content := by
  have hmade := keeps_makeDirectory f path.parent f (.refl f)
  rcases hrun : (makeDirectory path.parent).runOn f with ⟨e | _, made⟩
  · rw [hrun] at hmade
    rw [runOn_bind, hrun]
    exact .inl ⟨e, made, rfl, hmade, refuses_of_makeDirectory hrun⟩
  · rw [hrun] at hmade
    have hmade' := keeps_makePlace made path made (.refl made)
    rw [runOn_bind_of_eq_ok hrun, runOn_write]
    rcases hplace : (makePlace path).runOn made with ⟨e | place, made'⟩
    · rw [hplace] at hmade'
      refine .inl ⟨e, made', rfl, hmade.trans hmade', fun content => ?_⟩
      rw [runOn_bind_of_eq_ok hrun, runOn_write, hplace]
    · obtain ⟨hgrows, hlocate⟩ := makePlace_eq_ok hplace
      exact .inr ⟨_, rfl, sameBut_put (hmade.trans hgrows) hlocate content,
        holds_put hlocate content⟩

/-- A table is written below directories that are made, unless no table can be saved at its path. -/
theorem runOn_saveTable_cases (f : Files) (path : Path) (columns : Table) :
    (∃ e g, (do makeDirectory path.parent; writeTable path columns).runOn f = (.error e, g) ∧
        f.Extends g ∧ f.Refuses writeTable path e) ∨
      ∃ g place, (do makeDirectory path.parent; writeTable path columns).runOn f =
          (.ok (), g.put place (.table columns)) ∧
        f.Extends g ∧ g.tablePlace? path = .ok place := by
  have hmade := keeps_makeDirectory f path.parent f (.refl f)
  rcases hrun : (makeDirectory path.parent).runOn f with ⟨e | _, made⟩
  · rw [hrun] at hmade
    rw [runOn_bind, hrun]
    exact .inl ⟨e, made, rfl, hmade, refuses_of_makeDirectory hrun⟩
  · rw [hrun] at hmade
    rw [runOn_bind_of_eq_ok hrun, runOn_writeTable]
    rcases hplace : made.tablePlace? path with e | place
    · refine .inl ⟨e, made, rfl, hmade, fun columns => ?_⟩
      rw [runOn_bind_of_eq_ok hrun, runOn_writeTable, hplace]
    · exact .inr ⟨made, place, rfl, hmade, hplace⟩

end Files
end Turmite
