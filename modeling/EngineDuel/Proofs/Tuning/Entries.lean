import EngineDuel.Proofs.Tuning.Table

/-!
# What a table lists

A table holds what was set in it and nothing else, however often and in whatever order values were
set (`IsSortedMap`, `sorted_map`): each value has the rating that was set last for it, and is listed
once, in the total order of doubles. Values are told apart by their bits, so zero and minus zero have
entries of their own, and so have NaNs with different bits.

What a table holds is kept by one more rating (`Holds.set`), so by any number of them
(`Holds.setAll`), and the rest follows from it. One more rating leaves the entries of other values as
they are (`filter_set`).
-/

namespace EngineDuel.Tuning.Table

/-- Ratings that are set one after another. -/
def setAll (t : Table) (sets : List (UInt64 × Float)) : Table :=
  sets.foldl (fun t entry => t.set entry.1 entry.2) t

/-- The rating that was set last for a value. -/
def lastSet? (sets : List (UInt64 × Float)) (bits : UInt64) : Option Float :=
  ((sets.filter (·.1 = bits)).getLast?).map Prod.snd

/-- A table that holds what was set. -/
structure Holds (sets : List (UInt64 × Float)) (t : Table) : Prop where
  /-- Each value has the rating that was set last for it. -/
  get?_eq : ∀ bits, t.get? bits = lastSet? sets bits
  /-- The values that are listed are those for which a rating was set. -/
  mem_keys : ∀ bits, bits ∈ t.keys ↔ bits ∈ sets.map Prod.fst
  /-- They are listed in the total order of doubles. -/
  ordered : t.keys.Pairwise Number.Precedes

variable {sets : List (UInt64 × Float)} {t : Table} {bits other : UInt64} {rating : Float}

theorem lastSet?_append_singleton :
    lastSet? (sets ++ [(bits, rating)]) other =
      if other = bits then some rating else lastSet? sets other := by
  unfold lastSet?
  rw [List.filter_append]
  split_ifs with h
  · rw [List.filter_cons_of_pos (by simpa using h.symm), List.filter_nil, List.getLast?_concat]
    rfl
  · rw [List.filter_cons_of_neg (by simpa using Ne.symm h), List.filter_nil, List.append_nil]

/-- **One more rating** is held with those before it. -/
theorem Holds.set (h : Holds sets t) (bits : UInt64) (rating : Float) :
    Holds (sets ++ [(bits, rating)]) (t.set bits rating) where
  get?_eq other := by rw [get?_set, lastSet?_append_singleton, h.get?_eq]
  mem_keys other := by
    rw [mem_keys_set, h.mem_keys, List.map_append, List.mem_append, List.map_singleton,
      List.mem_singleton, or_comm]
  ordered := by
    have hascending : t.Ascending := h.ordered.imp precedes_iff.1
    exact (hascending.set bits rating).imp precedes_iff.2

theorem holds_nil : Holds [] [] where
  get?_eq _ := rfl
  mem_keys _ := Iff.rfl
  ordered := List.Pairwise.nil

/-- **All ratings that are set** are held: by induction on them, from the first one on. -/
theorem Holds.setAll (h : Holds sets t) (more : List (UInt64 × Float)) :
    Holds (sets ++ more) (t.setAll more) := by
  induction more generalizing sets t with
  | nil => rwa [List.append_nil]
  | cons entry more ih =>
    have hmore := ih (h.set entry.1 entry.2)
    rwa [List.append_assoc, List.singleton_append] at hmore

/-! ## Entries -/

/-- No value precedes itself, so none is listed twice. -/
theorem Holds.nodup (h : Holds sets t) : t.keys.Nodup :=
  h.ordered.imp fun hprecedes heq => (precedes_iff.1 hprecedes).ne (congrArg place heq)

/-- If no value is listed twice, the entries are what is found. -/
theorem mem_iff_of_nodup (h : t.keys.Nodup) : (bits, rating) ∈ t ↔ t.get? bits = some rating := by
  induction t with
  | nil => exact iff_of_false List.not_mem_nil nofun
  | cons entry rest ih =>
    obtain ⟨key, old⟩ := entry
    obtain ⟨hkey, hrest⟩ := List.nodup_cons.1 h
    rw [get?_cons, List.mem_cons, ih hrest, Prod.mk.injEq]
    split_ifs with hbits
    · have hnone : get? rest bits ≠ some rating := fun hfound =>
        hkey (hbits ▸ (mem_keys_iff rest bits).2 (hfound ▸ rfl))
      rw [or_iff_left hnone, and_iff_right hbits, Option.some.injEq, eq_comm]
    · exact or_iff_right fun heq => hbits heq.1

theorem Holds.mem_iff (h : Holds sets t) :
    (bits, rating) ∈ t ↔ lastSet? sets bits = some rating := by
  rw [mem_iff_of_nodup h.nodup, h.get?_eq]

/-- There are as many entries as there are values for which a rating was set. -/
theorem Holds.length_eq (h : Holds sets t) : t.length = (sets.map Prod.fst).toFinset.card := by
  have hsame : t.keys.toFinset = (sets.map Prod.fst).toFinset := by
    ext bits
    rw [List.mem_toFinset, List.mem_toFinset, h.mem_keys]
  rw [← hsame, List.toFinset_card_of_nodup h.nodup, keys, List.length_map]

/-- **Setting a rating** leaves the entries of other values as they are. -/
theorem filter_set (bits : UInt64) (rating : Float) (t : Table) :
    (t.set bits rating).filter (·.1 ≠ bits) = t.filter (·.1 ≠ bits) := by
  have hown (old : Float) (rest : Table) :
      ((bits, old) :: rest).filter (·.1 ≠ bits) = rest.filter (·.1 ≠ bits) :=
    List.filter_cons_of_neg (by simp)
  fun_induction Table.set bits rating t with
  | case1 => exact hown rating []
  | case2 old rest => rw [hown, hown]
  | case3 key old rest hne hlt => rw [hown]
  | case4 key old rest hne hge ih => rw [List.filter_cons, List.filter_cons, ih]

/-- A table that is a sorted map of what was set. -/
structure IsSortedMap (sets : List (UInt64 × Float)) (t : Table) : Prop extends Holds sets t where
  /-- No value is listed twice. -/
  nodup : t.keys.Nodup
  /-- Each is listed with the rating that was set last for it. -/
  mem_iff : ∀ bits rating, (bits, rating) ∈ t ↔ lastSet? sets bits = some rating
  /-- There are as many entries as there are values for which a rating was set. -/
  length_eq : t.length = (sets.map Prod.fst).toFinset.card
  /-- With one more rating the entries of other values stay as they are. -/
  others_eq : ∀ bits rating,
    (t.set bits rating).filter (·.1 ≠ bits) = t.filter (·.1 ≠ bits)

/-- **A table is a sorted map**, whatever is set in it after its first value. -/
theorem sorted_map (bits : UInt64) (rating : Float) (more : List (UInt64 × Float)) :
    IsSortedMap ((bits, rating) :: more) ((seeded bits rating).setAll more) := by
  have hholds : Holds ((bits, rating) :: more) ((seeded bits rating).setAll more) :=
    (holds_nil.set bits rating).setAll more
  exact { hholds with
    nodup := hholds.nodup
    mem_iff := fun _ _ => hholds.mem_iff
    length_eq := hholds.length_eq
    others_eq := fun bits rating => filter_set bits rating _ }

/-- A NaN with a minus sign comes first, and zero behind minus zero, though it was set before. -/
example :
    (seeded 0 1000.0).setAll [(0x7ff8000000000001, 1.0), (0x8000000000000000, 990.0), (0, 1010.0),
        (0xfff0000000000001, 2.0)] =
      [(0xfff0000000000001, 2.0), (0x8000000000000000, 990.0), (0, 1010.0),
        (0x7ff8000000000001, 1.0)] := by
  rfl

end EngineDuel.Tuning.Table
