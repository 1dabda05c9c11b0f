import EngineDuel.Proofs.Number.ReadBack
import EngineDuel.Tuning.BuildSettings
import Mathlib.Data.List.Infix

/-!
# Templates

A text in which a mark is replaced is a template with holes, filled (`replace_eq`): which holes there
are does not depend on what they are filled with. So a template with a hole tells from what it has
become with what it was filled (`fill_injective`), and the places of two values have different names
(`outputPath_ne`).
-/

namespace EngineDuel.Tuning

/-! ## Holes -/

/-- A text as it is read from the left: its characters, and holes in place of the marks. -/
def holesFrom (mark : List Char) : ℕ → List Char → List (Option Char)
  | _, [] => []
  | skip + 1, _ :: rest => holesFrom mark skip rest
  | 0, c :: rest =>
    if mark.isPrefixOf (c :: rest) then none :: holesFrom mark (mark.length - 1) rest
    else some c :: holesFrom mark 0 rest

/-- The template that a text is. -/
def holes (mark s : List Char) : List (Option Char) := holesFrom mark 0 s

/-- What a part of a template becomes. -/
def filling (new : List Char) : Option Char → List Char
  | none => new
  | some c => [c]

/-- What a template becomes if its holes are filled. -/
def fill (new : List Char) (t : List (Option Char)) : List Char := t.flatMap (filling new)

section Holes

variable {mark new : List Char} {s : List Char} {t : List (Option Char)}

theorem fill_cons (new : List Char) (x : Option Char) (t : List (Option Char)) :
    fill new (x :: t) = filling new x ++ fill new t := List.flatMap_cons

theorem fill_append (new : List Char) (t t' : List (Option Char)) :
    fill new (t ++ t') = fill new t ++ fill new t' := List.flatMap_append

theorem replaceFrom_eq (mark new : List Char) (skip : ℕ) (s : List Char) :
    replaceFrom mark new skip s = fill new (holesFrom mark skip s) := by
  fun_induction holesFrom mark skip s with
  | case1 => rw [replaceFrom]; rfl
  | case2 skip c rest ih => rw [replaceFrom, ih]
  | case3 c rest h ih => rw [replaceFrom, if_pos h, ih]; rfl
  | case4 c rest h ih => rw [replaceFrom, if_neg h, ih]; rfl

/-- **To replace is to fill holes.** -/
theorem replace_eq (mark new s : List Char) : replace mark new s = fill new (holes mark s) :=
  replaceFrom_eq mark new 0 s

/-- Filled with the mark, a template is the text that it was read from. -/
theorem fill_holesFrom (hmark : mark ≠ []) (skip : ℕ) (s : List Char) :
    fill mark (holesFrom mark skip s) = s.drop skip := by
  fun_induction holesFrom mark skip s with
  | case1 skip => rw [List.drop_nil]; rfl
  | case2 skip c rest ih => rw [ih, List.drop_succ_cons]
  | case3 c rest h ih =>
    obtain ⟨more, hmore⟩ := List.isPrefixOf_iff_prefix.1 h
    obtain ⟨m, ms, rfl⟩ := List.exists_cons_of_ne_nil hmark
    rw [List.cons_append] at hmore
    obtain ⟨rfl, rfl⟩ := List.cons.inj hmore
    rw [fill_cons, ih, List.length_cons, Nat.add_sub_cancel, List.drop_left]
    rfl
  | case4 c rest h ih => rw [fill_cons, ih]; rfl

theorem fill_holes (hmark : mark ≠ []) (s : List Char) : fill mark (holes mark s) = s :=
  fill_holesFrom hmark 0 s

/-- A text without holes stays as it is. -/
theorem fill_map_some (new s : List Char) : fill new (s.map some) = s := by
  rw [fill, List.flatMap_map]
  exact List.flatMap_singleton' s

theorem exists_eq_map_some (h : none ∉ t) : ∃ s : List Char, t = s.map some := by
  induction t with
  | nil => exact ⟨[], rfl⟩
  | cons x t ih =>
    obtain ⟨s, rfl⟩ := ih fun hmem => h (List.mem_cons_of_mem _ hmem)
    cases x with
    | none => exact absurd (List.mem_cons_self ..) h
    | some c => exact ⟨c :: s, rfl⟩

/-! ## Marks -/

/-- No mark is left among the characters. -/
def Read (mark : List Char) (t : List (Option Char)) : Prop :=
  ∀ before c after, t = before ++ some c :: after → ¬ mark <+: c :: fill mark after

theorem read_holesFrom (hmark : mark ≠ []) (skip : ℕ) (s : List Char) :
    Read mark (holesFrom mark skip s) := by
  fun_induction holesFrom mark skip s with
  | case1 => exact fun before c after h => absurd h (by simp)
  | case2 skip c rest ih => exact ih
  | case3 c rest h ih =>
    rintro (_ | ⟨x, before⟩) d after heq
    · cases heq
    · exact ih before d after (List.cons.inj heq).2
  | case4 c rest h ih =>
    rintro (_ | ⟨x, before⟩) d after heq
    · obtain ⟨hd, rfl⟩ := List.cons.inj heq
      obtain rfl := Option.some.inj hd
      rw [fill_holesFrom hmark, List.drop_zero, ← List.isPrefixOf_iff_prefix]
      exact h
    · exact ih before d after (List.cons.inj heq).2

theorem read_holes (hmark : mark ≠ []) (s : List Char) : Read mark (holes mark s) :=
  read_holesFrom hmark 0 s

/-- So it is within a template. -/
theorem Read.within {p : List (Option Char)} (h : Read mark t) (hp : p <:+: t) : Read mark p := by
  obtain ⟨front, back, rfl⟩ := hp
  rintro before c after rfl hprefix
  refine h (front ++ before) c (after ++ back) (by simp) ?_
  rw [fill_append, ← List.cons_append]
  exact hprefix.trans (List.prefix_append _ _)

theorem contains_iff {t s : List Char} : Text.contains t s = true ↔ t <:+: s := by
  induction s with
  | nil => rw [Text.contains, List.isEmpty_iff, List.infix_nil]
  | cons c rest ih =>
    rw [Text.contains, Bool.or_eq_true, ih, List.isPrefixOf_iff_prefix, List.infix_cons_iff]

/-- A template has a hole if and only if the mark stands in its text. -/
theorem contains_fill_iff (hmark : mark ≠ []) (h : Read mark t) :
    Text.contains mark (fill mark t) = true ↔ none ∈ t := by
  rw [contains_iff]
  constructor
  · rintro ⟨front, back, heq⟩
    by_contra hnone
    obtain ⟨cs, rfl⟩ := exists_eq_map_some hnone
    rw [fill_map_some] at heq
    obtain ⟨m, ms, rfl⟩ := List.exists_cons_of_ne_nil hmark
    refine h (front.map some) m ((ms ++ back).map some) ?_ ?_
    · rw [← heq]
      simp
    · rw [fill_map_some, ← List.cons_append]
      exact List.prefix_append _ _
  · intro hnone
    obtain ⟨before, after, rfl⟩ := List.append_of_mem hnone
    rw [fill_append, fill_cons]
    exact ⟨fill mark before, fill mark after, List.append_assoc _ _ _⟩

/-! ## Filling -/

theorem length_fill (new : List Char) (t : List (Option Char)) :
    (fill new t).length = t.countP Option.isSome + t.count none * new.length := by
  induction t with
  | nil => simp [fill]
  | cons x t ih =>
    rw [fill_cons, List.length_append, ih]
    cases x with
    | none =>
      rw [List.count_cons_self, List.countP_cons_of_neg (by simp), Nat.succ_mul]
      simp only [filling]
      omega
    | some c =>
      rw [List.count_cons_of_ne (by simp), List.countP_cons_of_pos rfl]
      simp only [filling, List.length_singleton]
      omega

/-- **A template with a hole tells what it was filled with.** -/
theorem fill_injective {u v : List Char} (hnone : none ∈ t) (h : fill u t = fill v t) : u = v := by
  have hlength : u.length = v.length := by
    have hlengths := congrArg List.length h
    rw [length_fill, length_fill, Nat.add_left_cancel_iff] at hlengths
    exact Nat.eq_of_mul_eq_mul_left (List.count_pos_iff.2 hnone) hlengths
  obtain ⟨before, after, rfl⟩ := List.append_of_mem hnone
  have hbefore : (fill u before).length = (fill v before).length := by
    rw [length_fill, length_fill, hlength]
  rw [fill_append, fill_append, fill_cons, fill_cons] at h
  exact List.append_inj_left (List.append_inj_right h hbefore) hlength

end Holes

/-! ## Names of places -/

namespace BuildSettings

variable {b : BuildSettings} {param : String} {u v : Float}

/-- The name of the place, where the parameter has been filled in. -/
def template (b : BuildSettings) (param : String) : List Char :=
  replace paramMark param.toList b.output.toList

theorem outputPath_eq (b : BuildSettings) (param : String) (value : Float) :
    b.outputPath param value =
      String.ofList (fill (Number.plain value).toList (holes valueMark (b.template param))) := by
  rw [outputPath, expand, replace_eq]
  rfl

theorem valueMark_ne_nil : valueMark ≠ [] := by decide

/-- **Names of places differ.** Values that are written differently have different names, if the
value has a place in the name. -/
theorem outputPath_ne (h : Text.contains valueMark (b.template param) = true)
    (hne : Number.plain u ≠ Number.plain v) : b.outputPath param u ≠ b.outputPath param v := by
  rw [← fill_holes valueMark_ne_nil (b.template param),
    contains_fill_iff valueMark_ne_nil (read_holes valueMark_ne_nil _)] at h
  intro heq
  have htexts := congrArg String.toList heq
  rw [outputPath_eq, outputPath_eq, String.toList_ofList, String.toList_ofList] at htexts
  exact hne (String.toList_injective (fill_injective h htexts))

end BuildSettings

end EngineDuel.Tuning
