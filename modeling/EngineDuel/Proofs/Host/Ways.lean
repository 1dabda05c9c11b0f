import EngineDuel.Proofs.Host.Files
import EngineDuel.Proofs.Report.FinalLine
import EngineDuel.Proofs.Text.Words
import EngineDuel.Proofs.Tuning.Templates

/-!
# Ways

A name is followed piece by piece, and where it leads is known from its text alone: so many
directories up and then down by some of its pieces (`Way`, `resolve_place`). Which pieces of a
template these are does not depend on the text that fills its holes, if that is the text of a number
(`exists_way`). So the names of two values lead to different places if the mark of the value is in
one of these pieces, and otherwise to the same place (`outputPlace_eq_iff`).
-/

namespace EngineDuel.Host

/-! ## Following a name -/

/-- What the pieces of a name come to. -/
structure Way where
  /-- How many directories they lead up. -/
  ups : ℕ := 0
  /-- The pieces by which they then lead down. -/
  downs : List String := []
  deriving DecidableEq

namespace Way

/-- A way and one more piece. A step up takes back a step down before it. -/
def step (way : Way) (piece : String) : Way :=
  if piece = "" ∨ piece = "." then way
  else if piece = ".." then
    if way.downs = [] then { way with ups := way.ups + 1 }
    else { way with downs := way.downs.dropLast }
  else { way with downs := way.downs ++ [piece] }

/-- The way of some pieces. -/
def ofPieces (pieces : List String) : Way := pieces.foldl step {}

/-- Where a way leads from a place. -/
def placeFrom (way : Way) (base : Place) : Place :=
  base.take (base.length - way.ups) ++ way.downs

theorem ofPieces_concat (pieces : List String) (piece : String) :
    ofPieces (pieces ++ [piece]) = (ofPieces pieces).step piece := by
  rw [ofPieces, List.foldl_append]
  rfl

variable {way : Way} {piece : String}

theorem step_stay (h : piece = "" ∨ piece = ".") : way.step piece = way := if_pos h

theorem step_down (hstay : ¬(piece = "" ∨ piece = ".")) (hup : piece ≠ "..") :
    way.step piece = { way with downs := way.downs ++ [piece] } := by
  rw [step, if_neg hstay, if_neg hup]

theorem placeFrom_up (way : Way) (base : Place) :
    (way.step "..").placeFrom base = (way.placeFrom base).dropLast := by
  rw [step, if_neg (by decide), if_pos rfl]
  split_ifs with hdowns
  · rw [placeFrom, placeFrom, hdowns, List.append_nil, List.append_nil, List.dropLast_eq_take,
      List.take_take, List.length_take]
    congr 1
    dsimp only
    omega
  · rw [placeFrom, placeFrom, List.dropLast_append_of_ne_nil hdowns]

theorem placeFrom_down (hstay : ¬(piece = "" ∨ piece = ".")) (hup : piece ≠ "..")
    (base : Place) : (way.step piece).placeFrom base = way.placeFrom base ++ [piece] := by
  rw [step_down hstay hup, placeFrom, placeFrom, List.append_assoc]

end Way

/-- Where a name leads, whatever there is. -/
def Path.place (cwd : Place) (path : String) : Place :=
  (Way.ofPieces (Path.pieces path)).placeFrom (if Path.isAbsolute path then [] else cwd)

/-- A name that begins in the directory where one works. -/
def Path.BeginsHere (path : String) : Prop :=
  path ≠ "" ∧ '\x00' ∉ path.toList ∧ path.utf8ByteSize ≤ Workspace.longestPath ∧
    Path.isAbsolute path = false

instance (path : String) : Decidable (Path.BeginsHere path) :=
  inferInstanceAs (Decidable (_ ∧ _ ∧ _ ∧ _))

namespace Workspace

variable {w : Workspace} {here cwd : Place} {pieces : List String} {path : String} {t : Target}

theorem Leads.place_eq {way : Way} {base : Place} (h : Leads w here pieces t)
    (hhere : here = way.placeFrom base) : t.place = (pieces.foldl Way.step way).placeFrom base := by
  induction h generalizing way with
  | arrived => exact hhere
  | stay _ hstay _ ih =>
    rw [List.foldl_cons, Way.step_stay hstay]
    exact ih hhere
  | up _ _ ih =>
    rw [List.foldl_cons]
    exact ih (by rw [Way.placeFrom_up, hhere])
  | down _ hstay hup _ _ _ ih =>
    rw [List.foldl_cons]
    exact ih (by rw [Way.placeFrom_down hstay hup, hhere])
  | nowhere _ hstay hup _ _ =>
    rw [List.foldl_cons, List.foldl_nil, Way.placeFrom_down hstay hup, hhere]

/-- What a name leads to is what its pieces lead to, if it can be a name. -/
theorem resolve_eq_ok : w.resolve cwd path = .ok t ↔
    (path ≠ "" ∧ ¬path.contains '\x00' = true ∧ ¬longestPath < path.utf8ByteSize) ∧
      Leads w (if Path.isAbsolute path then [] else cwd) (Path.pieces path) t := by
  unfold resolve
  generalize (if Path.isAbsolute path then ([] : Place) else cwd) = base
  split_ifs with hempty hnul hlong
  · exact ⟨nofun, fun h => absurd hempty h.1.1⟩
  · exact ⟨nofun, fun h => absurd hnul h.1.2.1⟩
  · exact ⟨nofun, fun h => absurd hlong h.1.2.2⟩
  · exact ⟨fun h => ⟨⟨hempty, hnul, hlong⟩, .of_walk h⟩, fun h => h.2.walk_eq⟩

/-- A name that begins here leads where its pieces lead. -/
theorem resolve_of_walk (hname : Path.BeginsHere path) (h : w.walk cwd (Path.pieces path) = .ok t) :
    w.resolve cwd path = .ok t := by
  obtain ⟨hempty, hnul, hlong, habsolute⟩ := hname
  refine resolve_eq_ok.2 ⟨⟨hempty, ?_, Nat.not_lt.2 hlong⟩, ?_⟩
  · simpa using hnul
  · rw [habsolute, if_neg Bool.false_ne_true]
    exact .of_walk h

/-- **A name leads to one place**, whatever there is on the way, if it leads anywhere. -/
theorem resolve_place (h : w.resolve cwd path = .ok t) : t.place = Path.place cwd path := by
  refine (resolve_eq_ok.1 h).2.place_eq ?_
  rw [Way.placeFrom, Nat.sub_zero, List.take_length, List.append_nil]

end Workspace

/-! ## Filled templates -/

open Tuning

/-- A text that is no more than a part of a piece, and makes any piece a step down. -/
structure Telling (s : List Char) : Prop where
  no_slash : '/' ∉ s
  not_dots : ∃ c ∈ s, c ≠ '.'

theorem Telling.ne_nil {s : List Char} (h : Telling s) : s ≠ [] := by
  obtain ⟨c, hc, -⟩ := h.not_dots
  exact List.ne_nil_of_mem hc

/-- A piece that is not only dots leads down. -/
theorem down_of_not_dots {s : List Char} (h : ∃ c ∈ s, c ≠ '.') :
    ¬(String.ofList s = "" ∨ String.ofList s = ".") ∧ String.ofList s ≠ ".." := by
  obtain ⟨c, hc, hdot⟩ := h
  have hdots (n : ℕ) : String.ofList s ≠ String.ofList (List.replicate n '.') := by
    intro heq
    rw [String.ofList_injective heq] at hc
    exact hdot (List.eq_of_mem_replicate hc)
  exact ⟨fun heq => heq.elim (hdots 0) (hdots 1), hdots 2⟩

/-- A filled piece of a template. -/
def filledPiece (new : List Char) (p : List (Option Char)) : String := String.ofList (fill new p)

section Filled

variable {new : List Char} {t p : List (Option Char)}

theorem pieces_fill (h : '/' ∉ new) (t : List (Option Char)) :
    Path.pieces (String.ofList (fill new t)) =
      (Text.splitAt (· == some '/') t).map (filledPiece new) := by
  have hsplit : Text.splitAt (· == '/') (t.flatMap (filling new)) =
      (Text.splitAt (· == some '/') t).map (List.flatMap (filling new)) := by
    refine Text.splitAt_flatMap ?_ ?_ t
    · intro x hx
      rw [beq_iff_eq] at hx
      subst hx
      exact ⟨'/', rfl, rfl⟩
    · rintro (_ | c) hx d hd
      · exact beq_false_of_ne fun heq => h (heq ▸ hd)
      · obtain rfl := List.mem_singleton.1 hd
        exact beq_false_of_ne fun heq => (beq_eq_false_iff_ne.1 hx) (congrArg some heq)
  rw [Path.pieces, String.toList_ofList, fill, hsplit, List.map_map]
  rfl

/-- A piece with a hole leads down. -/
theorem filledPiece_down (h : Telling new) (hp : none ∈ p) :
    ¬(filledPiece new p = "" ∨ filledPiece new p = ".") ∧ filledPiece new p ≠ ".." := by
  obtain ⟨c, hc, hdot⟩ := h.not_dots
  exact down_of_not_dots ⟨c, List.mem_flatMap.2 ⟨none, hp, hc⟩, hdot⟩

/-- A piece without a hole is the same however the template is filled. -/
theorem exists_filledPiece (hp : none ∉ p) : ∃ piece, ∀ new, filledPiece new p = piece := by
  obtain ⟨s, rfl⟩ := exists_eq_map_some hp
  exact ⟨String.ofList s, fun new => congrArg String.ofList (fill_map_some new s)⟩

/-- **The way of a template.** Its holes may be filled with any text that tells something. -/
theorem exists_way (pieces : List (List (Option Char))) :
    ∃ ups downs, downs ⊆ pieces ∧ ∀ new, Telling new →
      Way.ofPieces (pieces.map (filledPiece new)) = ⟨ups, downs.map (filledPiece new)⟩ := by
  induction pieces using List.reverseRecOn with
  | nil => exact ⟨0, [], List.nil_subset _, fun new _ => rfl⟩
  | append_singleton pieces p ih =>
    obtain ⟨ups, downs, hdowns, hway⟩ := ih
    have hsub : downs ⊆ pieces ++ [p] := List.Subset.trans hdowns (List.subset_append_left _ _)
    have hdown : downs ++ [p] ⊆ pieces ++ [p] :=
      List.append_subset.2 ⟨hsub, List.subset_append_right _ _⟩
    have hconcat (new : List Char) (h : Telling new) :
        Way.ofPieces ((pieces ++ [p]).map (filledPiece new)) =
          (⟨ups, downs.map (filledPiece new)⟩ : Way).step (filledPiece new p) := by
      rw [List.map_append, List.map_singleton, Way.ofPieces_concat, hway new h]
    by_cases hp : none ∈ p
    · refine ⟨ups, downs ++ [p], hdown, fun new h => ?_⟩
      obtain ⟨hstay, hup⟩ := filledPiece_down h hp
      rw [hconcat new h, Way.step_down hstay hup, List.map_append, List.map_singleton]
    obtain ⟨piece, hpiece⟩ := exists_filledPiece hp
    by_cases hstay : piece = "" ∨ piece = "."
    · refine ⟨ups, downs, hsub, fun new h => ?_⟩
      rw [hconcat new h, hpiece, Way.step_stay hstay]
    by_cases hup : piece = ".."
    · by_cases hnil : downs = []
      · refine ⟨ups + 1, [], List.nil_subset _, fun new h => ?_⟩
        rw [hconcat new h, hpiece, hup, hnil]
        rfl
      · refine ⟨ups, downs.dropLast, List.Subset.trans (List.dropLast_subset _) hsub, fun new h => ?_⟩
        have hne : downs.map (filledPiece new) ≠ [] := mt List.map_eq_nil_iff.1 hnil
        rw [hconcat new h, hpiece, hup, List.map_dropLast, Way.step, if_neg (by decide),
          if_pos rfl, if_neg hne]
    · refine ⟨ups, downs ++ [p], hdown, fun new h => ?_⟩
      rw [hconcat new h, hpiece, Way.step_down hstay hup, List.map_append, List.map_singleton,
        hpiece]

/-- Whether a filled template begins at the root does not depend on what fills it. -/
theorem isAbsolute_fill {u v : List Char} (hu : '/' ∉ u) (hv : '/' ∉ v) (hu' : u ≠ [])
    (hv' : v ≠ []) (t : List (Option Char)) :
    Path.isAbsolute (String.ofList (fill u t)) = Path.isAbsolute (String.ofList (fill v t)) := by
  have habsolute (s : List Char) :
      Path.isAbsolute (String.ofList s) = true ↔ s.head? = some '/' := by
    rw [Path.isAbsolute, String.startsWith_string_iff, String.toList_ofList]
    cases s with
    | nil => exact ⟨nofun, nofun⟩
    | cons c rest => simp [List.cons_prefix_cons, eq_comm]
  rw [Bool.eq_iff_iff, habsolute, habsolute]
  obtain _ | ⟨_ | c, t⟩ := t
  · exact Iff.rfl
  · obtain ⟨c, cs, rfl⟩ := List.exists_cons_of_ne_nil hu'
    obtain ⟨d, ds, rfl⟩ := List.exists_cons_of_ne_nil hv'
    exact ⟨fun h => absurd (Option.some.inj h ▸ List.mem_cons_self ..) hu,
      fun h => absurd (Option.some.inj h ▸ List.mem_cons_self ..) hv⟩
  · exact Iff.rfl

end Filled

/-! ## Places of values -/

/-- The text of a number tells something. -/
theorem telling_plain (x : Float) : Telling (Number.plain x).toList := by
  by_cases hfinite : Number.isFinite x = true
  · have hmarks := Report.digitsAnd_plain hfinite
    refine ⟨hmarks.not_mem rfl (by decide), ?_⟩
    obtain ⟨whole, fraction, htext, -, -⟩ :=
      Number.positional_text (Number.shortest (Number.pattern x))
    obtain ⟨c, rest, heq, hdigit⟩ := htext.head
    rw [Number.plain_toList hfinite, heq]
    refine ⟨c, List.mem_append_right _ (List.mem_cons_self ..), ?_⟩
    rintro rfl
    cases hdigit
  · have hpattern : ¬Number.pattern x < Number.infinityPattern := mt decide_eq_true hfinite
    rw [Number.plain, Number.Layout.text, String.toList_ofList, Number.Layout.chars,
      if_neg hpattern]
    split_ifs
    · cases Number.isNegative x
      · exact ⟨by decide, 'n', by decide, by decide⟩
      · exact ⟨by decide, 'n', by decide, by decide⟩
    · exact ⟨by decide, 'N', by decide, by decide⟩

theorem telling_valueMark : Telling valueMark := ⟨by decide, 'v', by decide, by decide⟩

variable {b : BuildSettings} {param : String} {u v : Float} {cwd : Place}

/-- The way of the name of a place, in which the parameter has been filled in and the value not. -/
def templateWay (b : BuildSettings) (param : String) : Way :=
  Way.ofPieces (Path.pieces (String.ofList (b.template param)))

/-- The mark of the value is still there if the name of the place is followed: in one of the pieces
by which it leads down. -/
def KeepsValue (b : BuildSettings) (param : String) : Prop :=
  ∃ piece ∈ (templateWay b param).downs, Text.contains valueMark piece.toList = true

instance (b : BuildSettings) (param : String) : Decidable (KeepsValue b param) :=
  inferInstanceAs (Decidable (∃ piece ∈ (templateWay b param).downs,
    Text.contains valueMark piece.toList = true))

/-- The names of all values lead down by the same pieces of their template, and the mark is kept if
one of these has a hole. -/
theorem exists_downs (b : BuildSettings) (param : String) :
    ∃ (ups : ℕ) (downs : List (List (Option Char))),
      (KeepsValue b param ↔ ∃ p ∈ downs, none ∈ p) ∧ ∀ value,
      Way.ofPieces (Path.pieces (b.outputPath param value)) =
        ⟨ups, downs.map (filledPiece (Number.plain value).toList)⟩ := by
  have hmark := BuildSettings.valueMark_ne_nil
  obtain ⟨ups, downs, hdowns, hway⟩ :=
    exists_way (Text.splitAt (· == some '/') (holes valueMark (b.template param)))
  have htemplate : templateWay b param = ⟨ups, downs.map (filledPiece valueMark)⟩ := by
    rw [templateWay, ← hway _ telling_valueMark, ← pieces_fill telling_valueMark.no_slash,
      fill_holes hmark]
  refine ⟨ups, downs, ?_, fun value => ?_⟩
  · have hcontains (p : List (Option Char)) (hp : p ∈ downs) :
        Text.contains valueMark (filledPiece valueMark p).toList = true ↔ none ∈ p := by
      rw [filledPiece, String.toList_ofList]
      exact contains_fill_iff hmark
        ((read_holes hmark _).within (Text.infix_of_mem_splitAt (hdowns hp)))
    rw [KeepsValue, htemplate]
    constructor
    · rintro ⟨_, hmem, hpiece⟩
      obtain ⟨p, hp, rfl⟩ := List.mem_map.1 hmem
      exact ⟨p, hp, (hcontains p hp).1 hpiece⟩
    · rintro ⟨p, hp, hnone⟩
      exact ⟨_, List.mem_map_of_mem hp, (hcontains p hp).2 hnone⟩
  · have htelling := telling_plain value
    rw [BuildSettings.outputPath_eq, pieces_fill htelling.no_slash, hway _ htelling]

/-- Where the engine of a value is copied to. -/
def outputPlace (b : BuildSettings) (param : String) (cwd : Place) (value : Float) : Place :=
  Path.place cwd (b.outputPath param value)

/-- **Places of values.** The engines of two values that are written differently are copied to
different places if the mark of the value is kept, and to the same place if it is not. -/
theorem outputPlace_eq_iff (hne : Number.plain u ≠ Number.plain v) :
    outputPlace b param cwd u = outputPlace b param cwd v ↔ ¬KeepsValue b param := by
  obtain ⟨ups, downs, hkeeps, hway⟩ := exists_downs b param
  have habsolute : Path.isAbsolute (b.outputPath param u) =
      Path.isAbsolute (b.outputPath param v) := by
    have hu := telling_plain u
    have hv := telling_plain v
    rw [BuildSettings.outputPath_eq, BuildSettings.outputPath_eq]
    exact isAbsolute_fill hu.no_slash hv.no_slash hu.ne_nil hv.ne_nil _
  rw [hkeeps, outputPlace, outputPlace, Path.place, Path.place, habsolute, hway, hway,
    Way.placeFrom, Way.placeFrom, List.append_cancel_left_eq, List.map_inj_left]
  constructor
  · rintro heq ⟨p, hp, hnone⟩
    refine hne (String.toList_injective (fill_injective hnone ?_))
    exact String.ofList_injective (heq p hp)
  · intro hnone p hp
    obtain ⟨piece, hpiece⟩ := exists_filledPiece fun hmem => hnone ⟨p, hp, hmem⟩
    rw [hpiece, hpiece]

/-! ## The last piece -/

/-- The mark is kept in the last piece of the name. -/
theorem keepsValue_of_last {front piece : List Char} (hpiece : '/' ∉ piece)
    (h : b.template param = front ++ piece) (hmark : Text.contains valueMark piece = true) :
    KeepsValue b param := by
  obtain ⟨pieces, last, hsplit⟩ := Text.exists_splitAt_append (p := (· == '/')) (s := front)
    fun c hc => beq_false_of_ne fun heq => hpiece (heq ▸ hc)
  have hcontains : Text.contains valueMark (last ++ piece) = true :=
    contains_iff.2 ((contains_iff.1 hmark).trans (List.suffix_append _ _).isInfix)
  have hpieces : Path.pieces (String.ofList (b.template param)) =
      pieces.map String.ofList ++ [String.ofList (last ++ piece)] := by
    rw [Path.pieces, String.toList_ofList, h, hsplit, List.map_append, List.map_singleton]
  have hletter : 'v' ∈ last ++ piece := (contains_iff.1 hcontains).subset (by decide)
  obtain ⟨hstay, hup⟩ := down_of_not_dots ⟨'v', hletter, by decide⟩
  refine ⟨String.ofList (last ++ piece), ?_, by rw [String.toList_ofList, hcontains]⟩
  rw [templateWay, hpieces, Way.ofPieces_concat, Way.step_down hstay hup]
  exact List.mem_append_right _ (List.mem_singleton_self _)

/-- **The mark is kept if nothing else is said**, for every parameter. -/
theorem keepsValue_default (h : b.output = defaultOutput) : KeepsValue b param := by
  have htemplate : b.template param =
      "target/tune/engine-".toList ++ param.toList ++ "-\x7bvalue\x7d".toList := by
    rw [BuildSettings.template, h, replace_eq]
    have hholes : holes paramMark defaultOutput.toList =
        "target/tune/engine-".toList.map some ++ none :: "-\x7bvalue\x7d".toList.map some := by
      decide
    rw [hholes, fill_append, fill_cons, fill_map_some, fill_map_some, List.append_assoc]
    rfl
  exact keepsValue_of_last (by decide) htemplate (by decide)

end EngineDuel.Host
