import EngineDuel.Proofs.Number.TotalOrder
import Mathlib.Data.List.Basic

/-!
# The table as a map

A table keeps its values strictly ascending by their places, so each value has one entry, and setting
the rating of a value changes what is found for this value only. The places of doubles that can be
compared are in the order of the doubles.
-/

namespace EngineDuel.Tuning

/-- **The order of places** is that of doubles. -/
theorem place_lt_place {x y : Float} (h : x < y) : place x.toBits < place y.toBits :=
  place_lt_of_value (by rwa [Float.ofBits_toBits, Float.ofBits_toBits])

namespace Table

/-- The values of a table. -/
def keys (t : Table) : List UInt64 := t.map Prod.fst

/-- Whether the values of a table ascend. -/
def Ascending (t : Table) : Prop := t.keys.Pairwise fun a b => place a < place b

variable {t : Table} {bits other : UInt64} {rating : Float}

theorem get?_cons (key : UInt64) (old : Float) (rest : Table) (bits : UInt64) :
    get? ((key, old) :: rest) bits = if bits = key then some old else get? rest bits := by
  rw [get?, List.lookup_cons]
  split_ifs with h
  · rw [beq_iff_eq.2 h]
  · rw [beq_false_of_ne h, get?]

theorem get?_set (bits : UInt64) (rating : Float) (t : Table) (other : UInt64) :
    (set bits rating t).get? other = if other = bits then some rating else t.get? other := by
  fun_induction set bits rating t with
  | case1 => rw [get?_cons]
  | case2 old rest =>
    rw [get?_cons, get?_cons]
    split_ifs <;> rfl
  | case3 => rw [get?_cons]
  | case4 key old rest hne hge ih =>
    rw [get?_cons, get?_cons, ih]
    split_ifs with hkey hbits
    · exact absurd (hkey.symm.trans hbits) hne
    · rfl
    · rfl
    · rfl

/-- The values of a table are those that it tells a rating for. -/
theorem mem_keys_iff (t : Table) (bits : UInt64) :
    bits ∈ t.keys ↔ (t.get? bits).isSome = true := by
  induction t with
  | nil => exact iff_of_false List.not_mem_nil nofun
  | cons entry rest ih =>
    obtain ⟨key, old⟩ := entry
    rw [get?_cons, keys, List.map_cons, List.mem_cons]
    split_ifs with h
    · exact iff_of_true (.inl h) rfl
    · rw [← ih]
      exact or_iff_right h

theorem mem_keys_set (bits : UInt64) (rating : Float) (t : Table) :
    other ∈ (set bits rating t).keys ↔ other = bits ∨ other ∈ t.keys := by
  fun_induction set bits rating t with
  | case1 => simp [keys]
  | case2 => simp [keys]
  | case3 => simp [keys]
  | case4 key old rest hne hge ih =>
    simp only [keys, List.map_cons, List.mem_cons] at ih ⊢
    rw [ih, or_left_comm]

/-- **A table stays in order.** -/
theorem Ascending.set (h : t.Ascending) (bits : UInt64) (rating : Float) :
    Ascending (t.set bits rating) := by
  unfold Ascending at *
  fun_induction Table.set bits rating t with
  | case1 => exact List.pairwise_singleton _ _
  | case2 => exact h
  | case3 key old rest hne hlt =>
    have hkey := List.pairwise_cons.1 h
    refine List.pairwise_cons.2 ⟨?_, h⟩
    intro other hmem
    rcases List.mem_cons.1 hmem with rfl | hmem
    · exact hlt
    · exact hlt.trans (hkey.1 other hmem)
  | case4 key old rest hne hge ih =>
    have hkey := List.pairwise_cons.1 h
    refine List.pairwise_cons.2 ⟨?_, ih hkey.2⟩
    intro other hmem
    rcases (mem_keys_set bits rating rest).1 hmem with rfl | hmem
    · have hplace : place key ≠ place other := fun heq => hne (place_injective heq)
      exact lt_of_le_of_ne (not_lt.1 hge) hplace
    · exact hkey.1 other hmem

/-- A table is known by its values in order and by what is found for them. -/
theorem Ascending.eq_map {values : List Float} {ratings : Float → Float} (h : t.Ascending)
    (hvalues : values.Pairwise (· < ·)) (hkeys : ∀ k, k ∈ t.keys ↔ k ∈ values.map Float.toBits)
    (hratings : ∀ v ∈ values, t.get? v.toBits = some (ratings v)) :
    t = values.map fun v => (v.toBits, ratings v) := by
  have hplaces : (values.map Float.toBits).Pairwise fun a b => place a < place b :=
    List.pairwise_map.2 (hvalues.imp place_lt_place)
  have hsame : t.keys = values.map Float.toBits := by
    refine List.Perm.eq_of_pairwise ?_ h hplaces ?_
    · intro a b _ _ hab hba
      exact absurd hab hba.not_gt
    · have hnodup {l : List UInt64} (hl : l.Pairwise fun a b => place a < place b) : l.Nodup :=
        hl.imp fun hlt heq => hlt.ne (congrArg place heq)
      exact (List.perm_ext_iff_of_nodup (hnodup h) (hnodup hplaces)).2 hkeys
  clear hkeys hvalues h
  induction values generalizing t with
  | nil => exact List.map_eq_nil_iff.1 hsame
  | cons v values ih =>
    obtain ⟨⟨key, rating⟩, rest, rfl, hkey, hrest⟩ := List.map_eq_cons_iff.1 hsame
    obtain ⟨hhead, htail⟩ := List.pairwise_cons.1 hplaces
    have hkey' : key = v.toBits := hkey
    subst hkey'
    have hrating := hratings v (List.mem_cons_self ..)
    rw [get?_cons, if_pos rfl, Option.some.injEq] at hrating
    have hrest' := ih (fun w hw => ?_) htail hrest
    · rw [List.map_cons, ← hrest', hrating]
    · have hne : w.toBits ≠ v.toBits := fun heq =>
        absurd (hhead w.toBits (List.mem_map_of_mem hw)) (heq ▸ lt_irrefl _)
      have hw' := hratings w (List.mem_cons_of_mem _ hw)
      rwa [get?_cons, if_neg hne] at hw'

end Table

end EngineDuel.Tuning
