import EngineDuel.Host.Build
import EngineDuel.Proofs.Host.Ways

/-!
# Copies

When an engine has been built it is copied to the place of its value.

1. Making directories takes nothing away (`grows_makeAbove`), and the copy is one file that is put
   (`keepArtifact_cases`). So every file to which another name leads is left as it is, whether the
   copy succeeds or not (`keepArtifact_keeps`).
2. All that a build does after its command has ended is this copy (`build_of_run`).
-/

namespace EngineDuel.Host

/-! ## Directories -/

namespace Workspace

variable {w w' : Workspace} {cwd place : Place} {path dest : String} {e : Entry}

/-- What there was is still there. -/
def Grows (w w' : Workspace) : Prop := ∀ p e, w.find? p = some e → w'.find? p = some e

theorem Grows.refl (w : Workspace) : w.Grows w := fun _ _ => id

theorem Grows.trans {w'' : Workspace} (h : w.Grows w') (h' : w'.Grows w'') : w.Grows w'' :=
  fun p e hp => h' p e (h p e hp)

/-- What is put where nothing was adds to what there is. -/
theorem grows_set (h : w.find? place = none) (e : Entry) : w.Grows (w.set place e) := by
  have hplace : place ≠ [] := by
    rintro rfl
    cases h
  intro p old hp
  rw [find?_set w hplace, if_neg, hp]
  rintro rfl
  rw [h] at hp
  cases hp

theorem grows_makeDirectory (h : w.makeDirectory cwd path = .ok w') : w.Grows w' := by
  rw [makeDirectory] at h
  obtain ⟨⟨place, _ | e⟩, hresolve, h⟩ := exists_of_bind_ok h
  · obtain rfl := Except.ok.inj h
    exact grows_set (resolve_eq_ok.1 hresolve).2.entry_eq.symm _
  · cases h

theorem grows_makeDirectories {depth : ℕ} (h : w.makeDirectories cwd depth path = .ok w') :
    w.Grows w' := by
  induction depth generalizing path w' with
  | zero =>
    obtain rfl := Except.ok.inj h
    exact .refl w
  | succ depth ih =>
    rw [makeDirectories] at h
    by_cases hempty : path = ""
    · rw [if_pos hempty] at h
      obtain rfl := Except.ok.inj h
      exact .refl w
    rw [if_neg hempty] at h
    split at h
    next made hmade =>
      obtain rfl := Except.ok.inj h
      exact grows_makeDirectory hmade
    next =>
      -- The directory above is missing, so it is made first.
      obtain ⟨above, habove, h⟩ := exists_of_bind_ok h
      split at h
      next made hmade =>
        obtain rfl := Except.ok.inj h
        exact (ih habove).trans (grows_makeDirectory hmade)
      next =>
        split_ifs at h
        obtain rfl := Except.ok.inj h
        exact ih habove
    next =>
      split_ifs at h
      obtain rfl := Except.ok.inj h
      exact .refl w

theorem grows_makeAbove (h : makeAbove w cwd path = .ok w') : w.Grows w' := by
  rw [makeAbove] at h
  split at h
  next =>
    obtain rfl := Except.ok.inj h
    exact .refl w
  next dir _ =>
    split_ifs at h
    · obtain rfl := Except.ok.inj h
      exact .refl w
    cases hmade : w.makeAll cwd dir with
    | error e =>
      rw [hmade] at h
      cases h
    | ok made =>
      rw [hmade] at h
      obtain rfl := Except.ok.inj h
      exact grows_makeDirectories hmade

/-- A directory above a name that is there need not be made. -/
theorem makeAbove_of_directory {dir : String} (hparent : Path.parent? path = some dir)
    (hempty : dir ≠ "") (hslash : dir.toList.getLast? ≠ some '/')
    (hdir : w.resolve cwd dir = .ok ⟨place, some .directory⟩) : makeAbove w cwd path = .ok w := by
  have hname : (if Path.trimBack dir.toList.reverse = ['/'] then dir
      else String.ofList (dir.toList.reverse.dropWhile (· = '/')).reverse) = dir := by
    have hkept : dir.toList.reverse.dropWhile (· = '/') = dir.toList.reverse := by
      rw [List.dropWhile_eq_self_iff]
      intro hpos hfirst
      rw [← List.head?_reverse, List.head?_eq_getElem?, List.getElem?_eq_getElem hpos] at hslash
      exact hslash (congrArg some (of_decide_eq_true hfirst))
    rw [hkept, List.reverse_reverse, String.ofList_toList, ite_self]
  have hmake : w.makeDirectory cwd dir = .error .alreadyThere := by
    rw [makeDirectory, hname, hdir]
    rfl
  have hisDirectory : w.isDirectory cwd dir = true := by
    rw [isDirectory, entry, hdir]
    rfl
  rw [makeAbove, hparent]
  dsimp only
  rw [if_neg hempty, makeAll, makeDirectories, if_neg hempty, hmake]
  dsimp only
  rw [if_pos hisDirectory]
  rfl

/-! ## Files that are kept -/

/-- A name leads to the same thing if it is still there, the directories remain, and whatever else
is on the way is replaced by something. -/
theorem resolve_change (h : w.resolve cwd path = .ok ⟨place, some e⟩)
    (hdirectory : ∀ p, w.find? p = some .directory → w'.find? p = some .directory)
    (hfound : ∀ p e, w.find? p = some e → ∃ e', w'.find? p = some e')
    (hplace : w'.find? place = some e) : w'.resolve cwd path = .ok ⟨place, some e⟩ := by
  obtain ⟨hname, hleads⟩ := resolve_eq_ok.1 h
  exact resolve_eq_ok.2 ⟨hname, hleads.change hdirectory hfound hplace⟩

/-- The file under a name is left as it is. -/
def KeepsFile (w w' : Workspace) (cwd : Place) (path : String) : Prop :=
  ∀ place f, w.resolve cwd path = .ok ⟨place, some (.file f)⟩ →
    w'.resolve cwd path = .ok ⟨place, some (.file f)⟩

theorem Grows.keepsFile (h : w.Grows w') (cwd : Place) (path : String) : w.KeepsFile w' cwd path :=
  fun _ _ hfile => resolve_change hfile (fun p => h p _) (fun p e hp => ⟨e, h p e hp⟩)
    (h _ _ (resolve_eq_ok.1 hfile).2.entry_eq.symm)

/-- A file that is put under one name leaves the files under names that lead elsewhere. -/
theorem keepsFile_set {old : Option File} (h : w.writable cwd dest = .ok (place, old)) (f : File)
    (hne : Path.place cwd path ≠ Path.place cwd dest) :
    w.KeepsFile (w.set place (.file f)) cwd path := by
  obtain ⟨-, hdest⟩ := writable_eq_ok.1 h
  have hthere : old.map Entry.file = w.find? place := (resolve_eq_ok.1 hdest).2.entry_eq
  have hdirectory : w.find? place ≠ some .directory := by
    rw [← hthere]
    cases old <;> nofun
  have hplace : place ≠ [] := by
    rintro rfl
    exact hdirectory rfl
  have hset := find?_set w hplace (.file f)
  intro place' g hfile
  have hother : place' ≠ place := by
    have hpath : place' = Path.place cwd path := resolve_place hfile
    have hput : place = Path.place cwd dest := resolve_place hdest
    rwa [hput, hpath]
  refine resolve_change hfile (fun p hp => ?_) (fun p e hp => ?_) ?_
  · rw [hset, if_neg, hp]
    rintro rfl
    exact hdirectory hp
  · rw [hset]
    split_ifs
    · exact ⟨_, rfl⟩
    · exact ⟨e, hp⟩
  · rw [hset, if_neg hother]
    exact (resolve_eq_ok.1 hfile).2.entry_eq.symm

/-- A copy is a file that is put under its name. -/
theorem copy_eq_ok (h : w.copy cwd path dest = .ok w') :
    ∃ place old f, w.writable cwd dest = .ok (place, old) ∧ w' = w.set place (.file f) := by
  rw [copy] at h
  obtain ⟨⟨source, _ | _ | f⟩, -, h⟩ := exists_of_bind_ok h
  · cases h
  · cases h
  · obtain ⟨⟨place, old⟩, hdest, h⟩ := exists_of_bind_ok h
    exact ⟨place, old, _, hdest, (Except.ok.inj h).symm⟩

theorem copy_of_file {source : Place} {f : File} {old : Option File}
    (hsource : w.resolve cwd path = .ok ⟨source, some (.file f)⟩)
    (hdest : w.writable cwd dest = .ok (place, old)) (hne : place ≠ source) :
    w.copy cwd path dest = .ok (w.set place (.file f)) := by
  rw [copy, hsource]
  simp only [bind, Except.bind, hdest]
  rw [if_neg hne]
  rfl

end Workspace

/-! ## Copies of what was built -/

variable {b : Tuning.BuildSettings} {w : Workspace} {cwd : Place} {dest path : String}

/-- **What a copy does.** Directories may be made, and if nothing fails one file is put. -/
theorem keepArtifact_cases (b : Tuning.BuildSettings) (w : Workspace) (cwd : Place)
    (dest : String) :
    ∃ above, w.Grows above ∧
      ((∃ e, keepArtifact b w cwd dest = { result := .error e, state := above }) ∨
        ∃ place old f, above.writable cwd dest = .ok (place, old) ∧
          keepArtifact b w cwd dest =
            { result := .ok (), state := above.set place (.file f) }) := by
  rw [keepArtifact]
  cases habove : makeAbove w cwd dest with
  | error e => exact ⟨w, .refl w, .inl ⟨e, rfl⟩⟩
  | ok above =>
    refine ⟨above, Workspace.grows_makeAbove habove, ?_⟩
    dsimp only
    cases hcopy : above.copy cwd b.artifact dest with
    | error e => exact .inl ⟨_, rfl⟩
    | ok copied =>
      obtain ⟨place, old, f, hwritable, rfl⟩ := Workspace.copy_eq_ok hcopy
      exact .inr ⟨place, old, f, hwritable, rfl⟩

/-- **A copy changes one file.** Every other file is left as it is. -/
theorem keepArtifact_keeps (hne : Path.place cwd path ≠ Path.place cwd dest) :
    w.KeepsFile (keepArtifact b w cwd dest).state cwd path := by
  obtain ⟨above, hgrows, ⟨e, heq⟩ | ⟨place, old, f, hwritable, heq⟩⟩ :=
    keepArtifact_cases b w cwd dest
  · rw [heq]
    exact hgrows.keepsFile cwd path
  · rw [heq]
    intro place' g hfile
    exact Workspace.keepsFile_set hwritable f hne _ _ (hgrows.keepsFile cwd path _ _ hfile)

/-- The name of a copy leads to a file. -/
theorem keepArtifact_there (h : (keepArtifact b w cwd dest).result = .ok ()) :
    ∃ f, (keepArtifact b w cwd dest).state.resolve cwd dest =
      .ok ⟨Path.place cwd dest, some (.file f)⟩ := by
  obtain ⟨above, -, ⟨e, heq⟩ | ⟨place, old, f, hwritable, heq⟩⟩ := keepArtifact_cases b w cwd dest
  · rw [heq] at h
    cases h
  · obtain ⟨-, hdest⟩ := Workspace.writable_eq_ok.1 hwritable
    obtain ⟨-, hcopied⟩ := Workspace.writable_eq_ok.1 (Workspace.writable_set hwritable f)
    have hplace : place = Path.place cwd dest := Workspace.resolve_place hdest
    rw [heq]
    exact ⟨f, hplace ▸ hcopied⟩

/-- A file is copied if the directory above the name of the copy is there. -/
theorem keepArtifact_of_directory {dir : String} {above source place : Place} {f : File}
    {old : Option File} (hparent : Path.parent? dest = some dir) (hempty : dir ≠ "")
    (hslash : dir.toList.getLast? ≠ some '/')
    (hdir : w.resolve cwd dir = .ok ⟨above, some .directory⟩)
    (hsource : w.resolve cwd b.artifact = .ok ⟨source, some (.file f)⟩)
    (hdest : w.writable cwd dest = .ok (place, old)) (hne : place ≠ source) :
    keepArtifact b w cwd dest = { result := .ok (), state := w.set place (.file f) } := by
  rw [keepArtifact, Workspace.makeAbove_of_directory hparent hempty hslash hdir]
  dsimp only
  rw [Workspace.copy_of_file hsource hdest hne]

/-! ## Builds -/

/-- What the command of a build leaves at its end, if it can be started. -/
def commandRun? (launch : Launcher) (cwd : Place) (b : Tuning.BuildSettings) (param : String)
    (s : Site) (value : Float) : Option Finished :=
  match Text.shellWords? (Tuning.expand b.command param value) with
  | some (program :: args) =>
    let environment : List (RawText × RawText) :=
      [("TUNE_PARAM", param), ("TUNE_VALUE", Number.plain value)]
    let started := do
      let place ← Site.workPlace s.files cwd b.workdir
      launch { path := program, args := args.map .text, environment, cwd := place } s.files
    match started with
    | .ok running => some (running.finish s.files s.input)
    | .error _ => none
  | _ => none

section Builds

variable {launch : Launcher} {param : String} {s : Site} {value : Float} {ran : Finished}

/-- **What a build does** after its command has ended: it copies what was made to the place of the
value. If the command did not end well, it does nothing more. -/
theorem build_of_run (h : commandRun? launch cwd b param s value = some ran) :
    let built := build launch cwd b param s value
    let kept := keepArtifact b ran.files cwd (b.outputPath param value)
    if ran.ending.isSuccess then
      built.result = kept.result.map (fun _ => b.outputPath param value) ∧
        built.state.files = kept.state
    else (∃ e, built.result = .error e) ∧ built.state.files = ran.files := by
  rw [commandRun?] at h
  rw [build]
  split at h
  next program args hwords =>
    rw [hwords]
    dsimp only at h ⊢
    split at h
    next running hstarted =>
      obtain rfl := Option.some.inj h
      rw [hstarted]
      dsimp only [Site.after]
      split_ifs
      · dsimp only
        exact ⟨rfl, rfl⟩
      · exact ⟨⟨_, rfl⟩, rfl⟩
    next => cases h
  next => cases h

/-- A build whose command cannot be started brings nothing. -/
theorem build_of_unstarted (h : commandRun? launch cwd b param s value = none) :
    ∃ e, (build launch cwd b param s value).result = .error e := by
  rw [commandRun?] at h
  rw [build]
  split
  next => exact ⟨_, rfl⟩
  next => exact ⟨_, rfl⟩
  next program args hwords =>
    rw [hwords] at h
    dsimp only at h ⊢
    split
    next => exact ⟨_, rfl⟩
    next running hstarted =>
      rw [hstarted] at h
      cases h

/-- A build brings the name of the place of its value, where there is a file then. -/
theorem build_eq_ok (h : (build launch cwd b param s value).result = .ok path) :
    path = b.outputPath param value ∧
      ∃ f, (build launch cwd b param s value).state.files.resolve cwd path =
        .ok ⟨Path.place cwd path, some (.file f)⟩ := by
  cases hrun : commandRun? launch cwd b param s value with
  | none =>
    obtain ⟨e, herror⟩ := build_of_unstarted hrun
    rw [herror] at h
    cases h
  | some ran =>
    have hbuild := build_of_run hrun
    dsimp only at hbuild
    split_ifs at hbuild
    · obtain ⟨hresult, hfiles⟩ := hbuild
      rw [h] at hresult
      cases hkept : (keepArtifact b ran.files cwd (b.outputPath param value)).result with
      | error e =>
        rw [hkept] at hresult
        cases hresult
      | ok =>
        rw [hkept] at hresult
        obtain rfl := Except.ok.inj hresult
        rw [hfiles]
        exact ⟨rfl, keepArtifact_there hkept⟩
    · obtain ⟨⟨e, herror⟩, -⟩ := hbuild
      rw [herror] at h
      cases h

/-- **A build overwrites one file.** What its command has left is left as it is under every name that
does not lead to the place of the value. -/
theorem build_keeps (h : commandRun? launch cwd b param s value = some ran)
    (hne : Path.place cwd path ≠ Path.place cwd (b.outputPath param value)) :
    ran.files.KeepsFile (build launch cwd b param s value).state.files cwd path := by
  have hbuild := build_of_run h
  dsimp only at hbuild
  split_ifs at hbuild
  · rw [hbuild.2]
    exact keepArtifact_keeps hne
  · rw [hbuild.2]
    exact fun _ _ => id

end Builds

end EngineDuel.Host
