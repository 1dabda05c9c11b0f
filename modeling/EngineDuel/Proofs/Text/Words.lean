import EngineDuel.Proofs.Text.Lines

/-!
# Words and rows

A text is read as its words (`words_cons`, `words_eq_singleton`), and a text of rows with line feeds
between them as its rows (`splitAt_join`, `join_splitAt`). A joined text begins and ends as the texts that it is
joined from (`head?_join`, `getLast?_join`).
-/

namespace EngineDuel.Text

/-- Whether a word holds no blank can be computed. -/
theorem not_isBlank_of_all {word : List Char} (h : word.all (! isBlank ·) = true) :
    ∀ c ∈ word, isBlank c = false := by
  simpa using h

/-- A first word and a space after it. -/
theorem words_cons {word : List Char} (hne : word ≠ []) (hword : ∀ c ∈ word, isBlank c = false)
    (rest : List Char) : words (word ++ ' ' :: rest) = word :: words rest := by
  unfold words
  rw [splitAt_append_cons _ _ (by decide), splitAt_eq_singleton hword, List.filter_append]
  simp [hne]

/-- The first piece is what a text begins with. -/
theorem prefix_of_splitAt {α : Type} {p : α → Bool} {s piece : List α} {pieces : List (List α)}
    (h : splitAt p s = piece :: pieces) : piece <+: s := by
  induction s generalizing piece pieces with
  | nil =>
    cases h
    exact List.prefix_refl _
  | cons b rest ih =>
    obtain ⟨first, more, heq⟩ := List.exists_cons_of_ne_nil (splitAt_ne_nil p rest)
    rw [splitAt, heq] at h
    split_ifs at h
    · cases h
      exact List.nil_prefix
    · cases h
      exact (List.prefix_cons_inj b).2 (ih heq)

/-- A piece stands in the text. -/
theorem infix_of_mem_splitAt {α : Type} {p : α → Bool} {s piece : List α}
    (h : piece ∈ splitAt p s) : piece <:+: s := by
  induction s generalizing piece with
  | nil =>
    rw [splitAt, List.mem_singleton] at h
    exact h ▸ List.infix_refl _
  | cons b rest ih =>
    obtain ⟨first, more, heq⟩ := List.exists_cons_of_ne_nil (splitAt_ne_nil p rest)
    rw [splitAt, heq] at h
    rw [heq] at ih
    split_ifs at h with hb
    · rcases List.mem_cons.1 h with rfl | hmem
      · exact List.nil_infix
      · exact (ih hmem).trans (List.suffix_cons b rest).isInfix
    · rcases List.mem_cons.1 h with rfl | hmem
      · exact ((List.prefix_cons_inj b).2 (prefix_of_splitAt heq)).isInfix
      · exact (ih (List.mem_cons_of_mem _ hmem)).trans (List.suffix_cons b rest).isInfix

/-- A piece consists of elements that are there and are not picked. -/
theorem mem_splitAt {α : Type} {p : α → Bool} {s piece : List α} (h : piece ∈ splitAt p s) :
    ∀ a ∈ piece, a ∈ s ∧ p a = false := by
  intro a ha
  refine ⟨(infix_of_mem_splitAt h).subset ha, ?_⟩
  induction s generalizing piece with
  | nil =>
    rw [splitAt, List.mem_singleton] at h
    subst h
    cases ha
  | cons b rest ih =>
    obtain ⟨first, more, heq⟩ := List.exists_cons_of_ne_nil (splitAt_ne_nil p rest)
    rw [splitAt, heq] at h
    rw [heq] at ih
    split_ifs at h with hb
    · rcases List.mem_cons.1 h with rfl | hmem
      · cases ha
      · exact ih hmem ha
    · rcases List.mem_cons.1 h with rfl | hmem
      · rcases List.mem_cons.1 ha with rfl | hfirst
        · exact Bool.eq_false_iff.2 hb
        · exact ih List.mem_cons_self hfirst
      · exact ih (List.mem_cons_of_mem _ hmem) ha

/-- An element that is not picked stands in a piece. -/
theorem exists_mem_splitAt {α : Type} {p : α → Bool} {s : List α} {a : α} (ha : a ∈ s)
    (h : p a = false) : ∃ piece ∈ splitAt p s, a ∈ piece := by
  induction s with
  | nil => cases ha
  | cons b rest ih =>
    obtain ⟨first, pieces, heq⟩ := List.exists_cons_of_ne_nil (splitAt_ne_nil p rest)
    rw [heq] at ih
    unfold splitAt
    rw [heq]
    by_cases hb : p b = true
    · rw [if_pos hb]
      have hrest := (List.mem_cons.mp ha).resolve_left fun hab => by simp [← hab, h] at hb
      obtain ⟨piece, hpiece, hmem⟩ := ih hrest
      exact ⟨piece, List.mem_cons_of_mem _ hpiece, hmem⟩
    · rw [if_neg hb]
      rcases List.mem_cons.mp ha with rfl | hrest
      · exact ⟨_, List.mem_cons_self, List.mem_cons_self⟩
      · obtain ⟨piece, hpiece, hmem⟩ := ih hrest
        rcases List.mem_cons.mp hpiece with rfl | hpiece
        · exact ⟨_, List.mem_cons_self, List.mem_cons_of_mem _ hmem⟩
        · exact ⟨piece, List.mem_cons_of_mem _ hpiece, hmem⟩

/-- A word is not empty, and consists of characters of the text that are not blank. -/
theorem mem_words {word s : List Char} (h : word ∈ words s) :
    word ≠ [] ∧ ∀ c ∈ word, c ∈ s ∧ isBlank c = false := by
  obtain ⟨hmem, hne⟩ := List.mem_filter.mp h
  exact ⟨of_decide_eq_true hne, mem_splitAt hmem⟩

/-- A text with a character that is not blank has a word. -/
theorem words_ne_nil {s : List Char} {c : Char} (hc : c ∈ s) (h : isBlank c = false) :
    words s ≠ [] := by
  obtain ⟨piece, hpiece, hmem⟩ := exists_mem_splitAt hc h
  exact List.ne_nil_of_mem (List.mem_filter.mpr ⟨hpiece, decide_eq_true (List.ne_nil_of_mem hmem)⟩)

/-- A single word. -/
theorem words_eq_singleton {word : List Char} (hne : word ≠ [])
    (hword : ∀ c ∈ word, isBlank c = false) : words word = [word] := by
  unfold words
  rw [splitAt_eq_singleton hword]
  simp [hne]

/-- Rows with line feeds between them, and one more line feed after them. -/
theorem splitAt_join {rows : List (List Char)} (hne : rows ≠ []) (hrows : ∀ row ∈ rows, '\n' ∉ row)
    (rest : List Char) :
    splitAt (· == '\n') (join ['\n'] rows ++ '\n' :: rest) = rows ++ splitAt (· == '\n') rest := by
  induction rows with
  | nil => exact absurd rfl hne
  | cons row rows ih =>
    have hfirst := splitAt_of_not_mem (hrows row List.mem_cons_self)
    cases rows with
    | nil =>
      show splitAt (· == '\n') (row ++ '\n' :: rest) = _
      rw [splitAt_append_cons _ _ (by decide), hfirst]
    | cons next rows =>
      have hrest := ih (List.cons_ne_nil _ _) fun r hr => hrows r (List.mem_cons_of_mem _ hr)
      show splitAt (· == '\n') (row ++ ['\n'] ++ join ['\n'] (next :: rows) ++ '\n' :: rest) = _
      rw [List.append_assoc, List.append_assoc, List.singleton_append,
        splitAt_append_cons _ _ (by decide), hrest, hfirst]
      rfl

/-- The rows of a text make the text again. -/
theorem join_splitAt (sep : Char) (s : List Char) : join [sep] (splitAt (· == sep) s) = s := by
  induction s with
  | nil => rfl
  | cons c rest ih =>
    obtain ⟨row, rows, heq⟩ := List.exists_cons_of_ne_nil (splitAt_ne_nil (· == sep) rest)
    unfold splitAt
    rw [heq] at ih ⊢
    by_cases hc : c = sep
    · subst hc
      rw [if_pos (beq_self_eq_true c)]
      show [] ++ [c] ++ join [c] (row :: rows) = c :: rest
      rw [ih]
      rfl
    · rw [if_neg (by simpa using hc)]
      cases rows <;> exact congrArg (c :: ·) ih

/-! ## The ends of joined texts -/

variable {P : Char → Prop} {sep : List Char} {texts : List (List Char)}

theorem mem_join {c : Char} (h : c ∈ join sep texts) : c ∈ sep ∨ ∃ text ∈ texts, c ∈ text := by
  induction texts with
  | nil => cases h
  | cons text rest ih =>
    cases rest with
    | nil => exact .inr ⟨text, List.mem_cons_self, h⟩
    | cons next rest =>
      have h : c ∈ text ++ sep ++ join sep (next :: rest) := h
      rw [List.mem_append, List.mem_append] at h
      rcases h with (htext | hsep) | hrest
      · exact .inr ⟨text, List.mem_cons_self, htext⟩
      · exact .inl hsep
      · exact (ih hrest).imp_right fun ⟨t, ht, hc⟩ => ⟨t, List.mem_cons_of_mem _ ht, hc⟩

theorem join_ne_nil (hne : texts ≠ []) (h : ∀ text ∈ texts, text ≠ []) : join sep texts ≠ [] := by
  obtain ⟨text, rest, rfl⟩ := List.exists_cons_of_ne_nil hne
  have htext := h text List.mem_cons_self
  cases rest with
  | nil => exact htext
  | cons next rest =>
    show text ++ sep ++ join sep (next :: rest) ≠ []
    simp [htext]

theorem head?_join (h : ∀ text ∈ texts, text ≠ [] ∧ ∀ c ∈ text, P c) :
    ∀ c ∈ (join sep texts).head?, P c := by
  cases texts with
  | nil => nofun
  | cons text rest =>
    obtain ⟨hne, hplain⟩ := h text List.mem_cons_self
    have hhead : (join sep (text :: rest)).head? = text.head? := by
      cases rest with
      | nil => rfl
      | cons next rest =>
        obtain ⟨c, more, rfl⟩ := List.exists_cons_of_ne_nil hne
        rfl
    intro c hc
    rw [hhead] at hc
    exact hplain c (List.mem_of_head? hc)

theorem getLast?_join (h : ∀ text ∈ texts, text ≠ [] ∧ ∀ c ∈ text, P c) :
    ∀ c ∈ (join sep texts).getLast?, P c := by
  induction texts with
  | nil => nofun
  | cons text rest ih =>
    cases rest with
    | nil => exact fun c hc => (h text List.mem_cons_self).2 c (List.mem_of_getLast? hc)
    | cons next rest =>
      have hrest := fun t ht => h t (List.mem_cons_of_mem _ ht)
      have hne : join sep (next :: rest) ≠ [] :=
        join_ne_nil (List.cons_ne_nil _ _) fun t ht => (hrest t ht).1
      have hlast : (join sep (text :: next :: rest)).getLast? = (join sep (next :: rest)).getLast? := by
        show (text ++ sep ++ join sep (next :: rest)).getLast? = _
        rw [List.getLast?_append, List.getLast?_eq_some_getLast hne, Option.some_or]
      intro c hc
      rw [hlast] at hc
      exact ih hrest c hc

end EngineDuel.Text
