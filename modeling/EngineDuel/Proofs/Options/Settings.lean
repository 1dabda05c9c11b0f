import EngineDuel.Failure
import EngineDuel.Options.Grammar
import EngineDuel.Proofs.Number.Order
import EngineDuel.Proofs.Number.ReadBack

/-!
# Options that are given a value each

A command line is often made of options that are given one value each, some behind an equals sign
and some as the next argument (`Setting`). Such a command line is read by putting the values one
after another (`parse_settings`), if no option is given twice that may not be and no value that stands
alone looks like an option where the option does not allow it. A value that does look like an option ends the
reading (`parse_refused`).

Numbers are given as they are written elsewhere, and are read back from that (`word32_toString`,
`word64_toString`, `float_plain`).

An option's value is read late, when the next option starts. So what is known about a command line
that was read in part is what it will be once the value that waits is read (`Progress.Reads`).
-/

namespace EngineDuel.Options

open Number

/-! ## Values -/

theorem rawPath_of_ne {value : String} (h : value ≠ "") : rawPath value = .ok (.text value) :=
  if_neg fun heq => h (RawText.text.inj heq)

/-- A natural number is written as digits, at least one. -/
theorem toString_digits (n : ℕ) :
    ∃ c rest, (toString n).toList = c :: rest ∧ ∀ d ∈ c :: rest, d.isDigit = true := by
  obtain ⟨c, rest, heq⟩ := List.exists_cons_of_ne_nil (@Nat.toDigits_ne_nil n 10)
  rw [Nat.toString_eq_repr, Nat.toList_repr, heq]
  exact ⟨c, rest, rfl, fun d hd =>
    Nat.isDigit_of_mem_toDigits (by decide) (by decide) (heq ▸ hd)⟩

theorem head?_toString_ne (n : ℕ) : (toString n).toList.head? ≠ some '-' := by
  obtain ⟨c, rest, heq, hdigits⟩ := toString_digits n
  rw [heq]
  rintro ⟨⟩
  cases hdigits _ (List.mem_cons_self ..)

/-- Digits are read as the number that they denote, if it is not too large. -/
theorem readDigits_eq {low high : ℤ} {ds : List Char} (hlow : low ≤ 0)
    (hds : ∀ c ∈ ds, c.isDigit = true) {n : ℕ} (hhigh : (Nat.ofDigitChars 10 ds n : ℤ) ≤ high) :
    readDigits low high false n ds = .ok (Nat.ofDigitChars 10 ds n) := by
  induction ds generalizing n with
  | nil => rfl
  | cons c ds ih =>
    obtain ⟨hc, hds⟩ := List.forall_mem_cons.1 hds
    have hnext : (n : ℤ) * 10 + digitValue c = (10 * n + digitValue c : ℕ) := by
      push_cast
      ring
    have hgrows : 10 * n + digitValue c ≤ Nat.ofDigitChars 10 ds (10 * n + digitValue c) := by
      rw [Nat.ofDigitChars_eq_ofDigitChars_zero]
      exact (Nat.le_mul_of_pos_left _ (Nat.pow_pos (by decide))).trans (Nat.le_add_right ..)
    have hhigh : (Nat.ofDigitChars 10 ds (10 * n + digitValue c) : ℤ) ≤ high := hhigh
    have hbelow : ¬ high < (10 * n + digitValue c : ℕ) := by omega
    have habove : ¬ ((10 * n + digitValue c : ℕ) : ℤ) < low := by omega
    simp only [readDigits, hc, Bool.not_true, Bool.false_eq_true, if_false, hnext, hbelow, habove]
    exact ih hds hhigh

/-- A natural number is read back, if it is not too large. -/
theorem readWhole_toString {low high : ℤ} {n : ℕ} (hlow : low ≤ 0) (hhigh : n ≤ high) :
    readWhole low high (toString n).toList = .ok n := by
  obtain ⟨c, rest, heq, hdigits⟩ := toString_digits n
  have hvalue : Nat.ofDigitChars 10 (c :: rest) 0 = n := by
    rw [← heq, Nat.toString_eq_repr, Nat.toList_repr, Nat.ofDigitChars_ten_toDigits]
  have hread := @readDigits_eq low high _ hlow hdigits 0 (by rwa [hvalue])
  rw [hvalue] at hread
  have hc := hdigits c (List.mem_cons_self ..)
  have hplus : c ≠ '+' := fun h => by simp [h] at hc
  have hminus : c ≠ '-' := fun h => by simp [h] at hc
  rw [heq]
  unfold readWhole
  split
  · next heq => cases heq
  · next heq => exact absurd (List.cons.inj heq).1 hplus
  · next heq => exact absurd (List.cons.inj heq).1 hminus
  · next heq => exact absurd (List.cons.inj heq).1 hplus
  · next heq => exact absurd (List.cons.inj heq).1 hminus
  · exact hread

theorem word32_toString (n : UInt32) : word32 (toString n.toNat) = .ok n := by
  have hn : n.toNat < UInt32.size := n.toNat_lt
  have hhigh : (n.toNat : ℤ) ≤ 0x7fffffffffffffff :=
    (Int.ofNat_le.2 (Nat.le_of_lt hn)).trans (by decide)
  have hin : 0 ≤ (n.toNat : ℤ) ∧ (n.toNat : ℤ) < UInt32.size :=
    ⟨Int.natCast_nonneg _, Int.ofNat_lt.2 hn⟩
  have hread := @readWhole_toString (-0x8000000000000000) _ _ (by decide) hhigh
  simp only [word32, hread, Except.mapError, bind, Except.bind, hin, and_self, if_true,
    Int.toNat_natCast, UInt32.ofNat_toNat, pure, Except.pure]

theorem word64_toString (n : UInt64) : word64 (toString n.toNat) = .ok n := by
  have hn := n.toNat_lt
  unfold word64
  rw [readWhole_toString (by decide) (by simp only [UInt64.size]; omega)]
  show Except.ok (UInt64.ofNat (n.toNat : ℤ).toNat) = _
  rw [Int.toNat_natCast, UInt64.ofNat_toNat]

theorem float_plain {x : Float} (h : IsNumber x) : float (plain x) = .ok x := by
  have hread : float? (plain x).toList = some x := by
    rcases Nat.lt_or_eq_of_le h with hfinite | hinfinite
    · exact float?_plain (decide_eq_true hfinite)
    · exact float?_plain_infinity hinfinite
  unfold float
  rw [hread]

/-! ## Options -/

variable {α : Type} {specs : List (Spec α)} {p q : Progress α} {spec : Spec α}

/-- A command line that was read up to an option with its value, and what it is once that value is
read. -/
structure Progress.Reads (p q : Progress α) : Prop where
  settle_eq : p.settle = .ok q
  awaited_eq : p.awaited? = none
  pending_eq : q.pending = none

theorem Progress.reads_self (h : p.pending = none) : p.Reads p where
  settle_eq := by simp only [settle, h]
  awaited_eq := by simp only [awaited?, h]
  pending_eq := h

/-- An option with a value. -/
structure Setting where
  name : String
  value : String
  /-- Whether the value stands behind an equals sign. -/
  attached : Bool := false

namespace Setting

variable {s : Setting}

/-- The arguments that an option with its value consists of. -/
def arguments (s : Setting) : List RawText :=
  if s.attached then [.text ("--" ++ s.name ++ "=" ++ s.value)]
  else [.text ("--" ++ s.name), .text s.value]

theorem arguments_attached (h : s.attached = true) :
    s.arguments = [.text ("--" ++ s.name ++ "=" ++ s.value)] := if_pos h

theorem arguments_apart (h : ¬ s.attached = true) :
    s.arguments = [.text ("--" ++ s.name), .text s.value] := if_neg h

/-- The option of a program that has a name. -/
def find? (specs : List (Spec α)) (s : Setting) : Option (Spec α) :=
  specs.find? fun spec => spec.name = s.name

theorem name_of_find? (h : s.find? specs = some spec) : spec.name = s.name := by
  simpa using List.find?_some h

/-- What an option with its value changes, if it is an option with a value. -/
def put (specs : List (Spec α)) (s : Setting) (o : α) : Except ValueFault α :=
  match (s.find? specs).map Spec.effect with
  | some (.value put) => put s.value o
  | _ => .error .missing

/-- Only an option with a value can be put. -/
theorem exists_of_put {o o' : α} (h : s.put specs o = .ok o') :
    ∃ spec put, s.find? specs = some spec ∧ spec.effect = .value put ∧ put s.value o = .ok o' := by
  unfold put at h
  cases hfound : s.find? specs with
  | none =>
    simp only [hfound] at h
    cases h
  | some spec =>
    cases heffect : spec.effect with
    | value put =>
      simp only [hfound, Option.map, heffect] at h
      exact ⟨spec, put, rfl, heffect, h⟩
    | switch set =>
      simp only [hfound, Option.map, heffect] at h
      cases h
    | instead refusal =>
      simp only [hfound, Option.map, heffect] at h
      cases h

/-- An option whose value is read puts what was read. -/
theorem put_read {β : Type} {read : RawText → Except ValueFault β} {set : β → α → α} {x : β} (o : α)
    (hfound : s.find? specs = some spec)
    (heffect : spec.effect = .value fun value o => (read value).map fun x => set x o)
    (hread : read s.value = .ok x) : s.put specs o = .ok (set x o) := by
  simp only [put, hfound, Option.map_some, heffect, hread]
  rfl

/-- The name of an option ends where an equals sign may stand. -/
def IsNamed (s : Setting) : Prop := s.name ≠ "" ∧ '=' ∉ s.name.toList

instance : Decidable s.IsNamed :=
  inferInstanceAs (Decidable (s.name ≠ "" ∧ '=' ∉ s.name.toList))

/-- A value that stands where it cannot be taken for another option. -/
def IsApart (specs : List (Spec α)) (s : Setting) : Prop :=
  s.attached = true ∨ (s.find? specs).any Spec.anyValue = true ∨ s.value.toList.head? ≠ some '-'

instance (specs : List (Spec α)) (s : Setting) : Decidable (s.IsApart specs) :=
  inferInstanceAs (Decidable (_ ∨ _ ∨ _))

/-- An option that may be given more than once. -/
def IsRepeatable (specs : List (Spec α)) (s : Setting) : Prop :=
  (s.find? specs).any Spec.repeatable = true

instance (specs : List (Spec α)) (s : Setting) : Decidable (s.IsRepeatable specs) :=
  inferInstanceAs (Decidable ((s.find? specs).any Spec.repeatable = true))

end Setting

variable {s : Setting} {rest : List RawText}

/-! ## One option -/

theorem splitLong_name {name : String} (h : '=' ∉ name.toList) (arg : String) :
    splitLong arg name.toList = (name, none) := by
  have hname : ∀ c ∈ name.toList, decide (c ≠ '=') = true := fun c hc =>
    decide_eq_true fun heq => h (heq ▸ hc)
  unfold splitLong
  rw [List.takeWhile_eq_self_iff.mpr hname, List.dropWhile_eq_nil_iff.mpr hname]
  simp [RawText.ofLetters, RawText.shown]

theorem splitLong_value {name : String} (h : '=' ∉ name.toList) (arg value : String) :
    splitLong arg (name.toList ++ '=' :: value.toList) = (name, some (.text value)) := by
  have hname : ∀ c ∈ name.toList, decide (c ≠ '=') = true := fun c hc =>
    decide_eq_true fun heq => h (heq ▸ hc)
  unfold splitLong
  rw [List.takeWhile_append_of_pos hname, List.dropWhile_append_of_pos hname]
  simp [RawText.ofLetters, RawText.shown]

/-- An option with a value that is still to come. -/
theorem step_name {put : RawText → α → Except ValueFault α} (hnamed : s.IsNamed)
    (hfound : s.find? specs = some spec) (heffect : spec.effect = .value put)
    (hreads : p.Reads q) :
    step specs p (.text ("--" ++ s.name)) = .ok { q with pending := some (spec, none) } := by
  have hsplit := splitLong_name hnamed.2 ("--" ++ s.name)
  have htext : (RawText.text ("--" ++ s.name)).letters = '-' :: '-' :: s.name.toList := by
    rw [RawText.letters, String.toList_append]
    rfl
  have hfound : specs.find? (fun spec => spec.name = s.name) = some spec := hfound
  simp only [step, hreads.awaited_eq, htext, hsplit, hfound, Progress.option, heffect,
    hreads.settle_eq]
  rfl

/-- An option with its value behind an equals sign. -/
theorem step_attached {put : RawText → α → Except ValueFault α} (hnamed : s.IsNamed)
    (hfound : s.find? specs = some spec) (heffect : spec.effect = .value put)
    (hreads : p.Reads q) :
    step specs p (.text ("--" ++ s.name ++ "=" ++ s.value)) = q.put spec s.value := by
  have hsplit := splitLong_value hnamed.2 ("--" ++ s.name ++ "=" ++ s.value) s.value
  have htext : (RawText.text ("--" ++ s.name ++ "=" ++ s.value)).letters =
      '-' :: '-' :: (s.name.toList ++ '=' :: s.value.toList) := by
    simp only [RawText.letters, String.toList_append, List.append_assoc]
    rfl
  have hfound : specs.find? (fun spec => spec.name = s.name) = some spec := hfound
  simp only [step, hreads.awaited_eq, htext, hsplit, hfound, Progress.option, heffect,
    hreads.settle_eq]
  rfl

/-- The value of an option as an argument of its own. -/
theorem step_value {value : String} (hawaited : p.awaited? = some spec)
    (h : spec.anyValue = true ∨ value.toList.head? ≠ some '-') :
    step specs p value = .ok { p with pending := some (spec, some (.text value)) } := by
  simp only [step, hawaited, RawText.letters]
  by_cases hany : spec.anyValue = true
  · simp [hany]
  · have hhead := h.resolve_left hany
    simp only [Option.map_some, Option.getD_some, if_neg hany]
    split
    · next heq => simp [heq] at hhead
    · next heq => simp [heq] at hhead
    · rfl

/-- Reading the value of an option that was not given before, or may be given again. -/
theorem put_fresh {put : RawText → α → Except ValueFault α} {o : α} {value : RawText}
    (hfresh : spec.name ∈ q.given → spec.repeatable = true) (heffect : spec.effect = .value put)
    (hput : put value q.options = .ok o) :
    q.put spec value = .ok { q with options := o, given := spec.name :: q.given } := by
  have hgive : q.give spec = .ok { q with given := spec.name :: q.given } := by
    unfold Progress.give
    rw [if_neg (by simpa using hfresh)]
  unfold Progress.put
  rw [hgive, heffect]
  show (do return { q with options := ← (put value q.options).mapError _, given := _ }) = _
  rw [hput]
  rfl

theorem steps_cons {arg : String}
    (h : arg ≠ "--" ∨ ∃ spec, p.awaited? = some spec ∧ spec.anyValue = true) :
    steps specs p (.text arg :: rest) = step specs p arg >>= fun p' => steps specs p' rest := by
  have hnot : ¬ (RawText.text arg = .text "--" && !(p.awaited?.map Spec.anyValue).getD false) =
      true := by
    rcases h with h | ⟨spec, hawaited, hany⟩
    · simp [h]
    · simp [hawaited, hany]
  rw [steps.eq_def]
  exact if_neg hnot

/-- The name of an option with a value that is an argument of its own. -/
theorem steps_name {put : RawText → α → Except ValueFault α} (hnamed : s.IsNamed)
    (hfound : s.find? specs = some spec) (heffect : spec.effect = .value put)
    (hreads : p.Reads q) :
    steps specs p (.text ("--" ++ s.name) :: rest) =
      steps specs { q with pending := some (spec, none) } rest := by
  have hname : "--" ++ s.name ≠ "--" := fun heq => by
    simpa [hnamed.1] using congrArg String.toList heq
  rw [steps_cons (.inl hname), step_name hnamed hfound heffect hreads]
  rfl

/-- **One option with its value** is read when the next one starts. -/
theorem steps_setting {o : α} (hnamed : s.IsNamed) (hapart : s.IsApart specs)
    (hfresh : s.name ∈ q.given → s.IsRepeatable specs) (hput : s.put specs q.options = .ok o)
    (hreads : p.Reads q) (rest : List RawText) :
    ∃ p', steps specs p (s.arguments ++ rest) = steps specs p' rest ∧
      p'.Reads { q with options := o, given := s.name :: q.given } := by
  obtain ⟨spec, put, hfound, heffect, hvalue⟩ := Setting.exists_of_put hput
  have hread : q.put spec s.value = .ok { q with options := o, given := s.name :: q.given } := by
    rw [Setting.IsRepeatable, hfound, Option.any_some] at hfresh
    rw [← Setting.name_of_find? hfound] at hfresh ⊢
    exact put_fresh hfresh heffect hvalue
  by_cases hattached : s.attached = true
  · have hdashes : "--" ++ s.name ++ "=" ++ s.value ≠ "--" := fun heq => by
      simpa using congrArg String.toList heq
    refine ⟨_, ?_, Progress.reads_self hreads.pending_eq⟩
    rw [Setting.arguments_attached hattached, List.singleton_append, steps_cons (.inl hdashes),
      step_attached hnamed hfound heffect hreads, hread]
    rfl
  · have happart : spec.anyValue = true ∨ s.value.toList.head? ≠ some '-' := by
      simpa only [hfound, Option.any_some] using hapart.resolve_left hattached
    have hvalue : s.value ≠ "--" ∨ ∃ spec', some spec = some spec' ∧ spec'.anyValue = true := by
      rcases happart with hany | hhead
      · exact .inr ⟨spec, rfl, hany⟩
      · exact .inl fun heq => hhead (by rw [heq]; rfl)
    have hsettled : ({ q with pending := none } : Progress α) = q := by
      obtain ⟨options, given, pending⟩ := q
      cases hreads.pending_eq
      rfl
    refine ⟨{ q with pending := some (spec, some (.text s.value)) }, ?_, ?_, rfl,
      hreads.pending_eq⟩
    · rw [Setting.arguments_apart hattached, List.cons_append,
        steps_name hnamed hfound heffect hreads, List.singleton_append, steps_cons hvalue,
        step_value rfl happart]
      rfl
    · show ({ q with pending := none } : Progress α).put spec s.value = _
      rw [hsettled, hread]

/-- A value that is an argument of its own and begins with a hyphen and a letter that is no option
is refused with everything behind it, if the option does not allow it. -/
theorem steps_refused {put : RawText → α → Except ValueFault α} {letter : Char} {text : List Char}
    (hnamed : s.IsNamed) (hfound : s.find? specs = some spec) (heffect : spec.effect = .value put)
    (hattached : ¬ s.attached = true) (hany : spec.anyValue = false)
    (hvalue : s.value.toList = '-' :: letter :: text) (hletter : letter ≠ '-')
    (hnone : specs.find? (fun spec => spec.letter = some letter) = none) (hreads : p.Reads q)
    (rest : List RawText) :
    steps specs p (s.arguments ++ rest) =
      .error (.strayArgument (String.ofList ['-', letter])) := by
  have hdashes : s.value ≠ "--" := fun heq => by
    rw [heq] at hvalue
    exact hletter (List.cons.inj (List.cons.inj hvalue).2).1.symm
  have hstep : step specs { q with pending := some (spec, none) } s.value =
      .error (.strayArgument (String.ofList ['-', letter])) := by
    simp only [step, Progress.awaited?, Option.map_some, hany, RawText.letters, hvalue,
      Option.getD_some, hnone, shownShort, List.take_succ_cons, List.take_zero, Bool.false_eq_true,
      if_false]
  rw [Setting.arguments_apart hattached, List.cons_append, steps_name hnamed hfound heffect hreads,
    List.singleton_append, steps_cons (.inl hdashes), hstep]
  rfl

/-! ## Several options -/

/-- What several options with values change. -/
def Setting.putAll (specs : List (Spec α)) (settings : List Setting) (o : α) :
    Except ValueFault α :=
  settings.foldlM (fun o s => s.put specs o) o

theorem Setting.putAll_cons {o o₁ o₂ : α} {settings : List Setting}
    (hfirst : s.put specs o = .ok o₁) (hlater : Setting.putAll specs settings o₁ = .ok o₂) :
    Setting.putAll specs (s :: settings) o = .ok o₂ := by
  rw [putAll, List.foldlM_cons, hfirst]
  exact hlater

theorem Setting.putAll_append {o o₁ o₂ : α} {before after : List Setting}
    (hfirst : Setting.putAll specs before o = .ok o₁)
    (hlater : Setting.putAll specs after o₁ = .ok o₂) :
    Setting.putAll specs (before ++ after) o = .ok o₂ := by
  have hfirst : before.foldlM (fun o s => s.put specs o) o = .ok o₁ := hfirst
  rw [putAll, List.foldlM_append, hfirst]
  exact hlater

/-- Options with values of which only those are given twice that may be, and none can be taken for
something else. -/
structure Setting.AreClear (specs : List (Spec α)) (settings : List Setting) : Prop where
  named : ∀ s ∈ settings, s.IsNamed
  apart : ∀ s ∈ settings, s.IsApart specs
  once : settings.Pairwise fun s t => s.name = t.name → t.IsRepeatable specs

theorem Setting.once_of_nodup {settings : List Setting} (h : (settings.map Setting.name).Nodup) :
    settings.Pairwise fun s t => s.name = t.name → t.IsRepeatable specs :=
  (List.pairwise_map.1 h).imp fun hne heq => absurd heq hne

theorem Setting.AreClear.append_singleton {settings : List Setting}
    (h : Setting.AreClear specs settings) (hnamed : s.IsNamed) (hapart : s.IsApart specs)
    (hnew : s.name ∉ settings.map Setting.name) :
    Setting.AreClear specs (settings ++ [s]) where
  named := List.forall_mem_append.2 ⟨h.named, List.forall_mem_singleton.2 hnamed⟩
  apart := List.forall_mem_append.2 ⟨h.apart, List.forall_mem_singleton.2 hapart⟩
  once := by
    refine List.pairwise_append.2 ⟨h.once, List.pairwise_singleton _ _, fun t ht u hu heq => ?_⟩
    rw [List.mem_singleton.1 hu] at heq
    exact absurd (heq ▸ List.mem_map_of_mem ht) hnew

/-- **Options with values** are read one after another, if none is given again that may not be. -/
theorem steps_settings {settings : List Setting} {o : α} (rest : List RawText)
    (hclear : Setting.AreClear specs settings)
    (hfresh : ∀ s ∈ settings, s.name ∈ q.given → s.IsRepeatable specs)
    (hput : Setting.putAll specs settings q.options = .ok o) (hreads : p.Reads q) :
    ∃ p', steps specs p (settings.flatMap Setting.arguments ++ rest) = steps specs p' rest ∧
      p'.Reads { q with
        options := o
        given := (settings.map Setting.name).reverse ++ q.given } := by
  induction settings generalizing p q with
  | nil =>
    cases hput
    exact ⟨p, rfl, hreads⟩
  | cons s settings ih =>
    obtain ⟨hnamed, hnameds⟩ := List.forall_mem_cons.1 hclear.named
    obtain ⟨hapart, haparts⟩ := List.forall_mem_cons.1 hclear.apart
    obtain ⟨hlast, honce⟩ := List.pairwise_cons.1 hclear.once
    obtain ⟨hfirst, hfresh⟩ := List.forall_mem_cons.1 hfresh
    obtain ⟨o₁, hone, hlater⟩ := exists_of_bind_ok hput
    obtain ⟨p₁, hstep, hreads₁⟩ :=
      steps_setting hnamed hapart hfirst hone hreads (settings.flatMap Setting.arguments ++ rest)
    have hfresh₁ : ∀ t ∈ settings, t.name ∈ s.name :: q.given → t.IsRepeatable specs := by
      intro t ht hmem
      rcases List.mem_cons.1 hmem with heq | hmem
      · exact hlast t ht heq.symm
      · exact hfresh t ht hmem
    obtain ⟨p', hsteps, hreads'⟩ :=
      ih (q := { q with options := o₁, given := s.name :: q.given }) ⟨hnameds, haparts, honce⟩
        hfresh₁ hlater hreads₁
    refine ⟨p', ?_, ?_⟩
    · rw [List.flatMap_cons, List.append_assoc, hstep, hsteps]
    · simpa only [List.map_cons, List.reverse_cons, List.append_assoc, List.singleton_append]
        using hreads'

variable {settings : List Setting} {start o : α}

/-- **A command line of options with values** puts these values into the default options, if every
option that must be given is. -/
theorem parse_settings (hclear : Setting.AreClear specs settings)
    (hput : Setting.putAll specs settings start = .ok o)
    (hrequired : ∀ spec ∈ specs, spec.required = true → spec.name ∈ settings.map Setting.name) :
    parse specs start (settings.flatMap Setting.arguments) = .ok o := by
  obtain ⟨p', hsteps, hreads⟩ := steps_settings (p := { options := start }) [] hclear
    (fun _ _ hgiven => absurd hgiven List.not_mem_nil) hput (Progress.reads_self rfl)
  have hmissing : specs.filter (fun spec => spec.required &&
      !((settings.map Setting.name).reverse ++ []).contains spec.name) = [] := by
    refine List.filter_eq_nil_iff.2 fun spec hspec hnot => ?_
    obtain ⟨hmust, habsent⟩ := Bool.and_eq_true_iff.1 hnot
    have hgiven := List.mem_reverse.2 (hrequired spec hspec hmust)
    rw [List.append_nil, List.contains_iff_mem.2 hgiven] at habsent
    cases habsent
  have hread : steps specs { options := start } (settings.flatMap Setting.arguments) = .ok
      { options := o, given := (settings.map Setting.name).reverse ++ [] } := by
    rw [List.append_nil] at hsteps
    rw [hsteps, steps.eq_def]
    exact hreads.settle_eq
  simp only [parse, hread, bind, Except.bind, hmissing]
  rfl

/-- **A value that looks like an option** makes the command line be refused, whatever stands behind
it, if its option does not allow it. -/
theorem parse_refused {put : RawText → α → Except ValueFault α} {letter : Char} {text : List Char}
    (hclear : Setting.AreClear specs settings)
    (hput : Setting.putAll specs settings start = .ok o)
    (hnamed : s.IsNamed) (hfound : s.find? specs = some spec) (heffect : spec.effect = .value put)
    (hattached : ¬ s.attached = true) (hany : spec.anyValue = false)
    (hvalue : s.value.toList = '-' :: letter :: text) (hletter : letter ≠ '-')
    (hnone : specs.find? (fun spec => spec.letter = some letter) = none) (rest : List RawText) :
    parse specs start (settings.flatMap Setting.arguments ++ (s.arguments ++ rest)) =
      .error (.strayArgument (String.ofList ['-', letter])) := by
  obtain ⟨p', hsteps, hreads⟩ := steps_settings (p := { options := start }) (s.arguments ++ rest)
    hclear (fun _ _ hgiven => absurd hgiven List.not_mem_nil) hput (Progress.reads_self rfl)
  unfold parse
  rw [hsteps, steps_refused hnamed hfound heffect hattached hany hvalue hletter hnone hreads]
  rfl

end EngineDuel.Options
