import EngineDuel.Host.Race
import EngineDuel.Proofs.Host.Copies
import EngineDuel.Proofs.Tuning.CallOrder

/-!
# Engines of a search

A search keeps an engine while it builds and copies the next one. Its file stays as it is if the two
names lead to different places, which they do if the mark of the value is kept (`copies_apart`). A
name that takes its mark back by a step up leads to one place for all values, and then the engines
overwrite each other (`copies_shared`).
-/

namespace EngineDuel.Host

open Tuning

/-! ## Builds of a search -/

section Search

variable {launch : Launcher} {cwd : Place} {b : BuildSettings} {param : String} {r : RaceSettings}
  {range : Range} {s : Site}

theorem workshop_build (launch : Launcher) (cwd : Place) (b : BuildSettings) (param : String)
    (r : RaceSettings) (s : Site) (value : Float) :
    (workshop launch cwd b param r).build s value = build launch cwd b param s value := by
  rw [workshop]

/-- Each build of a search works on what the calls before it left. -/
theorem result_of_built {before after : List Tuning.Call} {value : Float}
    {result : Except Failure String}
    (h : callsOf (workshop launch cwd b param r) range s = before ++ .build value result :: after) :
    (build launch cwd b param ((workshop launch cwd b param r).stateAfter s before) value).result =
      result := by
  have hbrings := (callsOf_replays _ range s).1 before _ after h
  rw [Workshop.brings_build, workshop_build] at hbrings
  exact hbrings

theorem stateAfter_built (before : List Tuning.Call) (value : Float)
    (result : Except Failure String) :
    (workshop launch cwd b param r).stateAfter s (before ++ [.build value result]) =
      (build launch cwd b param ((workshop launch cwd b param r).stateAfter s before)
        value).state := by
  rw [Workshop.stateAfter_append, Workshop.stateAfter_build, Workshop.stateAfter_nil,
    workshop_build]

/-- The path of an engine that has been built is the name of the place of its value. -/
theorem path_of_built {value : Float} {path : String}
    (h : .build value (.ok path) ∈ callsOf (workshop launch cwd b param r) range s) :
    path = b.outputPath param value := by
  obtain ⟨before, after, hcalls⟩ := List.append_of_mem h
  exact (build_eq_ok (result_of_built hcalls)).1

end Search

/-! ## Copies of a search -/

/-- The copies of a search, which are made between its calls. -/
structure CopiesApart (launch : Launcher) (cwd : Place) (b : BuildSettings) (param : String)
    (calls : List Tuning.Call) (siteAfter : List Tuning.Call → Site) : Prop where
  /-- Values that are written differently have different names. -/
  names : ∀ u v, Number.plain u ≠ Number.plain v → b.outputPath param u ≠ b.outputPath param v
  /-- Wherever these names lead, they lead to one place only if the mark of the value is not kept. -/
  places : ∀ u v, Number.plain u ≠ Number.plain v → ∀ w w' t t',
    Workspace.resolve w cwd (b.outputPath param u) = .ok t →
      Workspace.resolve w' cwd (b.outputPath param v) = .ok t' →
        (t.place = t'.place ↔ ¬KeepsValue b param)
  /-- An engine that has been built is a file under the name of its value. -/
  built : ∀ before value path after, calls = before ++ .build value (.ok path) :: after →
    path = b.outputPath param value ∧ ∃ place f,
      (siteAfter (before ++ [.build value (.ok path)])).files.resolve cwd path =
        .ok ⟨place, some (.file f)⟩
  /-- If the mark of the value is kept, then after the command of a build has ended the file of every
  engine of another value that plays in the search is left as it is. -/
  files : KeepsValue b param → ∀ before value result after,
    calls = before ++ .build value result :: after →
      ∀ ran, commandRun? launch cwd b param (siteAfter before) value = some ran →
        ∀ c ∈ players calls, c.value ≠ value →
          ran.files.KeepsFile (siteAfter (before ++ [.build value result])).files cwd c.path
  /-- It is kept if nothing else is said about the names. -/
  byDefault : b.output = defaultOutput → KeepsValue b param

/-- **Copies stay apart.** If the value has a place in the name to which engines are copied, engines
of different values have different names; and if following the name does not take it back, no copy
overwrites the engine of another value. -/
theorem copies_apart (launch : Launcher) (cwd : Place) (b : BuildSettings) (param : String)
    (r : RaceSettings) (range : Range) (s : Site)
    (h : Text.contains valueMark (b.template param) = true) :
    CopiesApart launch cwd b param (callsOf (workshop launch cwd b param r) range s)
      ((workshop launch cwd b param r).stateAfter s) where
  names u v hne := BuildSettings.outputPath_ne h hne
  places u v hne w w' t t' hu hv := by
    rw [Workspace.resolve_place hu, Workspace.resolve_place hv]
    exact outputPlace_eq_iff hne
  built before value path after hcalls := by
    obtain ⟨hpath, f, hfile⟩ := build_eq_ok (result_of_built hcalls)
    rw [stateAfter_built]
    exact ⟨hpath, _, f, hfile⟩
  files hkeeps before value result after hcalls ran hran c hc hne := by
    cases hvalid : range.validate with
    | error e =>
      rw [callsOf_refused _ s hvalid] at hcalls
      exact absurd hcalls (by simp)
    | ok _ =>
      have hmem : .build value result ∈ callsOf (workshop launch cwd b param r) range s :=
        hcalls ▸ List.mem_append_right _ (List.mem_cons_self ..)
      have hbuilt := built_of_mem_players hvalid hc
      have hplain : Number.plain c.value ≠ Number.plain value := fun heq =>
        hne (Number.plain_injective (isNumber_of_built hvalid hbuilt)
          (isNumber_of_built hvalid hmem) heq)
      rw [stateAfter_built]
      refine build_keeps hran ?_
      rw [path_of_built hbuilt]
      exact mt (outputPlace_eq_iff hplain).1 (not_not_intro hkeeps)
  byDefault := keepsValue_default

/-! ## Two values -/

/-- A file that tells for which value it was made. -/
def stamp (value : Float) : File := ⟨.bytes (Text.encode (Number.plain value)), true⟩

/-- Programs that write the value they are told into the file of an engine. -/
def stamper : Launcher := fun call w =>
  let told := (call.environment.lookup (.text "TUNE_VALUE")).getD default
  .ok (.store (w.set ["engine"] (.file ⟨.bytes told.bytes, true⟩)) fun _ => .done (.code 0))

/-- Engines that such a program makes are copied to `output`. -/
def stamping (output : String) : BuildSettings := { command := "make", artifact := "engine", output }

/-- The workshop of these settings. -/
def stampingShop (output : String) : Workshop Site :=
  workshop stamper [] (stamping output) "depth" ⟨"arena", "", 1, {}, 32.0, []⟩

/-- An engine that has been made, a directory with one for each of two values, and copies. -/
def outFiles (made : File) (copies : List (Place × Entry)) : Workspace :=
  ⟨[(["engine"], .file made), (["out"], .directory), (["out", "1"], .directory),
    (["out", "2"], .directory)] ++ copies⟩

theorem commandRun?_stamping (output : String) (s : Site) (value : Float) :
    commandRun? stamper [] (stamping output) "depth" s value = some {
      out := [], err := [], ending := .code 0
      files := s.files.set ["engine"] (.file (stamp value)), unread := s.input } := by
  have hexpand : expand "make" "depth" value = "make" := rfl
  have hwords : Text.shellWords? (expand "make" "depth" value) = some ["make"] := by
    rw [hexpand]
    decide +kernel
  rw [commandRun?, stamping, hwords]
  rfl

theorem keepArtifact_stamping (output : String) {made : File} {copies : List (Place × Entry)}
    (name dir : String) {above : Place} (place : Place) (old : Option File)
    (hname : Path.BeginsHere name ∧ Path.endsWithSlash name = false)
    (hparent : Path.parent? name = some dir)
    (hbegins : Path.BeginsHere dir ∧ dir.toList.getLast? ≠ some '/')
    (hdir : (outFiles made copies).walk [] (Path.pieces dir) = .ok ⟨above, some .directory⟩)
    (hdest : (outFiles made copies).walk [] (Path.pieces name) = .ok ⟨place, old.map .file⟩)
    (hne : place ≠ ["engine"]) :
    keepArtifact (stamping output) (outFiles made copies) [] name =
      { result := .ok (), state := (outFiles made copies).set place (.file made) } := by
  have hsource : (outFiles made copies).resolve [] "engine" =
      .ok ⟨["engine"], some (.file made)⟩ := Workspace.resolve_of_walk (by decide +kernel) rfl
  exact keepArtifact_of_directory hparent hbegins.1.1 hbegins.2
    (Workspace.resolve_of_walk hbegins.1 hdir) hsource
    (Workspace.writable_eq_ok.2 ⟨hname.2, Workspace.resolve_of_walk hname.1 hdest⟩) hne

theorem build_stamping {output : String} (s : Site) (value : Float) {files : Workspace}
    (h : keepArtifact (stamping output) (s.files.set ["engine"] (.file (stamp value))) []
      ((stamping output).outputPath "depth" value) = { result := .ok (), state := files }) :
    ((stampingShop output).build s value).result =
        .ok ((stamping output).outputPath "depth" value) ∧
      ((stampingShop output).build s value).state.files = files := by
  obtain ⟨hresult, hfiles⟩ := build_of_run (commandRun?_stamping output s value)
  rw [stampingShop, workshop_build, hresult, hfiles, h]
  exact ⟨rfl, rfl⟩

/-- A search of two values. -/
def oneToTwo : Range := ⟨1.0, 1.0, 2.0⟩

theorem validate_oneToTwo : oneToTwo.validate = .ok () := Range.validate_of_isOk (by decide +kernel)

theorem candidates_oneToTwo : oneToTwo.candidates = [2.0] := by decide +kernel

/-- Where it begins. -/
def outSite : Site := { files := outFiles (stamp 0.0) [] }

/-- Both engines of this search are built if they can be copied. -/
theorem search_stamping {output first second : String} {made : Workspace}
    {copies : List (Place × Entry)}
    (hnames : (stamping output).outputPath "depth" 1.0 = first ∧
      (stamping output).outputPath "depth" 2.0 = second)
    (hengine : ∀ f g, (outFiles f copies).set ["engine"] (.file g) = outFiles g copies)
    (hfirst : keepArtifact (stamping output) (outFiles (stamp 1.0) []) [] first =
      { result := .ok (), state := outFiles (stamp 1.0) copies })
    (hsecond : keepArtifact (stamping output) (outFiles (stamp 2.0) copies) [] second =
      { result := .ok (), state := made }) :
    ∃ baseline target outcome ran, callsOf (stampingShop output) oneToTwo outSite =
        [.build 1.0 (.ok first), .build 2.0 (.ok second), .race baseline target outcome] ∧
      baseline.value = 1.0 ∧ baseline.path = first ∧
      commandRun? stamper [] (stamping output) "depth"
        ((stampingShop output).stateAfter outSite [.build 1.0 (.ok first)]) 2.0 = some ran ∧
      ran.files = outFiles (stamp 2.0) copies ∧
      ((stampingShop output).stateAfter outSite
        [.build 1.0 (.ok first), .build 2.0 (.ok second)]).files = made := by
  obtain ⟨rfl, rfl⟩ := hnames
  have hstart (f g : File) : (outFiles f []).set ["engine"] (.file g) = outFiles g [] := rfl
  rw [← hstart (stamp 0.0)] at hfirst
  obtain ⟨hone, hfiles⟩ := build_stamping outSite 1.0 hfirst
  rw [← hengine (stamp 1.0), ← hfiles] at hsecond
  obtain ⟨htwo, hmade⟩ := build_stamping _ 2.0 hsecond
  obtain ⟨baseline, target, outcome, hcalls, hvalue, hpath⟩ :=
    callsOf_two validate_oneToTwo rfl candidates_oneToTwo hone htwo
  refine ⟨baseline, target, outcome, _, hcalls, hvalue, hpath, commandRun?_stamping .., ?_, ?_⟩
  · rw [Workshop.stateAfter_build, Workshop.stateAfter_nil, hfiles, hengine]
  · rw [Workshop.stateAfter_build, Workshop.stateAfter_build, Workshop.stateAfter_nil, hmade]

/-- A template that keeps the value. -/
def keepingValue : String := "out/engine-\x7bvalue\x7d"

/-- With such a template the first engine is still there when the second has been copied. -/
theorem copies_apart_two_values :
    Text.contains valueMark ((stamping keepingValue).template "depth") = true ∧
      KeepsValue (stamping keepingValue) "depth" ∧
      CopiesApart stamper [] (stamping keepingValue) "depth"
        (callsOf (stampingShop keepingValue) oneToTwo outSite)
        ((stampingShop keepingValue).stateAfter outSite) ∧
      ∃ before race, callsOf (stampingShop keepingValue) oneToTwo outSite = before ++ [race] ∧
        ((stampingShop keepingValue).stateAfter outSite before).files =
          outFiles (stamp 2.0) [(["out", "engine-1"], .file (stamp 1.0)),
            (["out", "engine-2"], .file (stamp 2.0))] := by
  have hvalue : Text.contains valueMark ((stamping keepingValue).template "depth") = true := by
    decide +kernel
  have hfirst : keepArtifact (stamping keepingValue) (outFiles (stamp 1.0) []) [] "out/engine-1" =
      { result := .ok ()
        state := outFiles (stamp 1.0) [(["out", "engine-1"], .file (stamp 1.0))] } :=
    keepArtifact_stamping keepingValue "out/engine-1" "out" ["out", "engine-1"] none
      (by decide +kernel) (by decide +kernel) (by decide +kernel) rfl rfl (by decide)
  have hsecond : keepArtifact (stamping keepingValue)
      (outFiles (stamp 2.0) [(["out", "engine-1"], .file (stamp 1.0))]) [] "out/engine-2" =
        { result := .ok ()
          state := outFiles (stamp 2.0) [(["out", "engine-1"], .file (stamp 1.0)),
            (["out", "engine-2"], .file (stamp 2.0))] } :=
    keepArtifact_stamping keepingValue "out/engine-2" "out" ["out", "engine-2"] none
      (by decide +kernel) (by decide +kernel) (by decide +kernel) rfl rfl (by decide)
  obtain ⟨baseline, target, outcome, -, hcalls, -, -, -, -, hmade⟩ :=
    search_stamping (by decide +kernel) (fun _ _ => rfl) hfirst hsecond
  exact ⟨hvalue, by decide +kernel, copies_apart stamper [] _ "depth" _ oneToTwo outSite hvalue,
    _, .race baseline target outcome, hcalls, hmade⟩

/-- A template that takes the value back by a step up. -/
def steppingBack : String := "out/\x7bvalue\x7d/../engine"

/-- **Copies may share a place.** With such a template the engine of the second value is copied over
that of the first, against which it is to play. -/
theorem copies_shared :
    Text.contains valueMark ((stamping steppingBack).template "depth") = true ∧
      ¬∀ before value result after,
        callsOf (stampingShop steppingBack) oneToTwo outSite =
          before ++ .build value result :: after →
            ∀ ran, commandRun? stamper [] (stamping steppingBack) "depth"
                ((stampingShop steppingBack).stateAfter outSite before) value = some ran →
              ∀ c ∈ players (callsOf (stampingShop steppingBack) oneToTwo outSite),
                c.value ≠ value →
                  ran.files.KeepsFile ((stampingShop steppingBack).stateAfter outSite
                    (before ++ [.build value result])).files [] c.path := by
  have hfirst : keepArtifact (stamping steppingBack) (outFiles (stamp 1.0) []) []
      "out/1/../engine" =
        { result := .ok ()
          state := outFiles (stamp 1.0) [(["out", "engine"], .file (stamp 1.0))] } :=
    keepArtifact_stamping steppingBack "out/1/../engine" "out/1/.." ["out", "engine"] none
      (by decide +kernel) (by decide +kernel) (by decide +kernel) rfl rfl (by decide)
  have hsecond : keepArtifact (stamping steppingBack)
      (outFiles (stamp 2.0) [(["out", "engine"], .file (stamp 1.0))]) [] "out/2/../engine" =
        { result := .ok ()
          state := outFiles (stamp 2.0) [(["out", "engine"], .file (stamp 2.0))] } :=
    keepArtifact_stamping steppingBack "out/2/../engine" "out/2/.." ["out", "engine"]
      (some (stamp 1.0)) (by decide +kernel) (by decide +kernel) (by decide +kernel) rfl rfl
      (by decide)
  obtain ⟨baseline, target, outcome, ran, hcalls, hvalue, hpath, hran, hfiles, hmade⟩ :=
    search_stamping (by decide +kernel) (fun _ _ => rfl) hfirst hsecond
  -- The first engine is still there after the command of the second build, and not after its copy.
  have hbefore : (outFiles (stamp 2.0) [(["out", "engine"], .file (stamp 1.0))]).resolve []
      "out/1/../engine" = .ok ⟨["out", "engine"], some (.file (stamp 1.0))⟩ :=
    Workspace.resolve_of_walk (by decide +kernel) rfl
  have hafter : (outFiles (stamp 2.0) [(["out", "engine"], .file (stamp 2.0))]).resolve []
      "out/1/../engine" = .ok ⟨["out", "engine"], some (.file (stamp 2.0))⟩ :=
    Workspace.resolve_of_walk (by decide +kernel) rfl
  refine ⟨by decide +kernel, fun hall => ?_⟩
  have hplays : baseline ∈ players (callsOf (stampingShop steppingBack) oneToTwo outSite) := by
    rw [hcalls]
    exact List.mem_cons_self ..
  have hne : baseline.value ≠ 2.0 := by
    rw [hvalue]
    decide +kernel
  have hkeeps := hall [.build 1.0 (.ok "out/1/../engine")] 2.0 (.ok "out/2/../engine")
    [.race baseline target outcome] hcalls ran hran baseline hplays hne
  rw [List.singleton_append, hfiles, hmade, hpath] at hkeeps
  have hsame := (hkeeps _ _ hbefore).symm.trans hafter
  have hstamp : stamp 1.0 = stamp 2.0 :=
    Entry.file.inj (Option.some.inj (Target.mk.inj (Except.ok.inj hsame)).2)
  exact absurd hstamp (by decide +kernel)

end EngineDuel.Host
