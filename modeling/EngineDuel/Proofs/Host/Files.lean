import EngineDuel.Host.Records
import Mathlib.Data.List.Basic

/-!
# Files that grow

A file that has been created under a name stays under this name while lines are added to it, and it
holds their bytes in order.

1. Something that is put at a place is found there, and what is elsewhere is as before
   (`Workspace.find?_set`).
2. The pieces of a name lead through directories (`Workspace.Leads`). So a name that leads to a
   place where there is no directory leads to the same place after a file has been put there
   (`Workspace.walk_set`).
3. So once a file has been created nothing can fail when lines are added to it
   (`Workspace.Has.addRecord`).
-/

namespace EngineDuel.Host

namespace Workspace

variable {w : Workspace} {place here : Place} {e : Entry}

/-! ## Places -/

theorem lookup_cons_of_ne {p q : Place} (h : p ≠ q) (e : Entry) (entries : List (Place × Entry)) :
    ((q, e) :: entries).lookup p = entries.lookup p := by
  rw [List.lookup_cons, beq_false_of_ne h]

theorem lookup_replace (entries : List (Place × Entry)) (place p : Place) (e : Entry) :
    (entries.map fun x => if x.1 = place then (place, e) else x).lookup p =
      if p = place then (entries.lookup place).map fun _ => e else entries.lookup p := by
  induction entries with
  | nil => simp
  | cons x entries ih =>
    obtain ⟨q, old⟩ := x
    rw [List.map_cons]
    by_cases hq : q = place
    · subst hq
      rw [if_pos rfl]
      by_cases hp : p = q
      · subst hp
        rw [List.lookup_cons_self, List.lookup_cons_self, if_pos rfl]
        rfl
      · rw [lookup_cons_of_ne hp, lookup_cons_of_ne hp, ih, if_neg hp, if_neg hp]
    · rw [if_neg hq, lookup_cons_of_ne (Ne.symm hq)]
      by_cases hp : p = q
      · subst hp
        rw [List.lookup_cons_self, List.lookup_cons_self, if_neg hq]
      · rw [lookup_cons_of_ne hp, lookup_cons_of_ne hp, ih]

/-- What there is at a place after something has been put at one. -/
theorem find?_set (w : Workspace) {place : Place} (hplace : place ≠ []) (e : Entry) (p : Place) :
    (w.set place e).find? p = if p = place then some e else w.find? p := by
  unfold find? set
  by_cases hroot : p = []
  · rw [if_pos hroot, if_pos hroot, if_neg (hroot ▸ hplace.symm)]
  rw [if_neg hroot, if_neg hroot]
  split_ifs with hsome hp hp
  · rw [lookup_replace, if_pos hp]
    obtain ⟨old, hold⟩ := Option.isSome_iff_exists.mp hsome
    rw [hold]
    rfl
  · rw [lookup_replace, if_neg hp]
  · subst hp
    rw [List.lookup_append, Option.not_isSome_iff_eq_none.mp hsome]
    simp
  · rw [List.lookup_append, lookup_cons_of_ne hp, List.lookup_nil, Option.or_none]

/-! ## Names -/

/-- The pieces of a name lead somewhere. The way goes through directories, and only its end may be a
place where there is nothing. -/
inductive Leads (w : Workspace) : Place → List String → Target → Prop
  | arrived {here : Place} : Leads w here [] ⟨here, w.find? here⟩
  | stay {here : Place} {piece : String} {rest : List String} {t : Target}
      (hhere : w.find? here = some .directory) (hstay : piece = "" ∨ piece = ".")
      (h : Leads w here rest t) : Leads w here (piece :: rest) t
  | up {here : Place} {rest : List String} {t : Target} (hhere : w.find? here = some .directory)
      (h : Leads w here.dropLast rest t) : Leads w here (".." :: rest) t
  | down {here : Place} {piece : String} {rest : List String} {t : Target} {e : Entry}
      (hhere : w.find? here = some .directory) (hstay : ¬ (piece = "" ∨ piece = "."))
      (hup : piece ≠ "..") (hshort : ¬ longestPiece < piece.utf8ByteSize)
      (hthere : w.find? (here ++ [piece]) = some e) (h : Leads w (here ++ [piece]) rest t) :
      Leads w here (piece :: rest) t
  | nowhere {here : Place} {piece : String} (hhere : w.find? here = some .directory)
      (hstay : ¬ (piece = "" ∨ piece = ".")) (hup : piece ≠ "..")
      (hshort : ¬ longestPiece < piece.utf8ByteSize) (hthere : w.find? (here ++ [piece]) = none) :
      Leads w here [piece] ⟨here ++ [piece], none⟩

variable {pieces : List String} {t : Target}

theorem Leads.of_walk (h : w.walk here pieces = .ok t) : Leads w here pieces t := by
  induction pieces generalizing here with
  | nil =>
    obtain rfl := Except.ok.inj h
    exact .arrived
  | cons piece rest ih =>
    rw [walk.eq_def] at h
    dsimp only at h
    split at h
    · cases h
    · cases h
    next hhere =>
    split_ifs at h with hstay hup hlong
    · exact .stay hhere (by simpa using hstay) (ih h)
    · exact hup ▸ .up hhere (ih h)
    replace hstay : ¬ (piece = "" ∨ piece = ".") := by simpa using hstay
    split at h
    · next hthere =>
      obtain rfl := Except.ok.inj h
      exact .nowhere hhere hstay hup hlong hthere
    · cases h
    · next hthere => exact .down hhere hstay hup hlong hthere (ih h)

theorem Leads.walk_eq (h : Leads w here pieces t) : w.walk here pieces = .ok t := by
  induction h with
  | arrived => rfl
  | stay hhere hstay _ ih =>
    rw [walk.eq_def]
    simp [hhere, hstay, ih]
  | up hhere _ ih =>
    rw [walk.eq_def]
    simp [hhere, ih]
  | down hhere hstay hup hshort hthere _ ih =>
    rw [walk.eq_def]
    simp [hhere, hstay, hup, hshort, hthere, ih]
  | nowhere hhere hstay hup hshort hthere =>
    rw [walk.eq_def]
    simp [hhere, hstay, hup, hshort, hthere]

/-- A name leads to what there is. -/
theorem Leads.entry_eq (h : Leads w here pieces t) : t.entry = w.find? t.place := by
  induction h with
  | arrived => rfl
  | stay _ _ _ ih => exact ih
  | up _ _ ih => exact ih
  | down _ _ _ _ _ _ ih => exact ih
  | nowhere _ _ _ _ hthere => exact hthere.symm

/-- A name leads to the same place if the directories remain, and whatever else is on the way is
replaced by something. -/
theorem Leads.change {w' : Workspace} (h : Leads w here pieces t)
    (hdirectory : ∀ p, w.find? p = some .directory → w'.find? p = some .directory)
    (hfound : ∀ p e, w.find? p = some e → ∃ e', w'.find? p = some e')
    (ht : w'.find? t.place = some e) : Leads w' here pieces ⟨t.place, some e⟩ := by
  induction h with
  | arrived => exact ht ▸ .arrived
  | stay hhere hstay _ ih => exact .stay (hdirectory _ hhere) hstay (ih ht)
  | up hhere _ ih => exact .up (hdirectory _ hhere) (ih ht)
  | down hhere hstay hup hshort hthere _ ih =>
    obtain ⟨e', hthere'⟩ := hfound _ _ hthere
    exact .down (hdirectory _ hhere) hstay hup hshort hthere' (ih ht)
  | nowhere hhere hstay hup hshort _ =>
    exact .down (hdirectory _ hhere) hstay hup hshort ht (ht ▸ .arrived)

/-- A name leads to a file that has been put where it leads. -/
theorem walk_set (h : w.walk here pieces = .ok t) (hentry : t.entry ≠ some .directory) (f : File) :
    (w.set t.place (.file f)).walk here pieces = .ok ⟨t.place, some (.file f)⟩ := by
  have hleads := Leads.of_walk h
  have hfind := hleads.entry_eq
  have hplace : t.place ≠ [] := by
    intro hroot
    rw [hroot] at hfind
    exact hentry hfind
  have hset := find?_set w hplace (.file f)
  refine (hleads.change (fun p hp => ?_) (fun p e hp => ?_) ?_).walk_eq
  · -- The way does not end at a directory that is on it.
    rw [hset, if_neg, hp]
    rintro rfl
    exact hentry (hfind.trans hp)
  · rw [hset]
    split_ifs
    · exact ⟨_, rfl⟩
    · exact ⟨_, hp⟩
  · rw [hset, if_pos rfl]

/-! ## Files -/

variable {cwd : Place} {path : String} {old : Option File}

/-- A file can be written under a name that neither asks for a directory nor leads to one. -/
theorem writable_eq_ok : w.writable cwd path = .ok (place, old) ↔
    Path.endsWithSlash path = false ∧ w.resolve cwd path = .ok ⟨place, old.map .file⟩ := by
  unfold writable
  cases hslash : Path.endsWithSlash path with
  | true =>
    cases w.resolve cwd (String.ofList (path.toList.reverse.dropWhile (· = '/')).reverse) <;>
      simp [bind, Except.bind, throw, throwThe, MonadExceptOf.throw]
  | false =>
    cases hresolve : w.resolve cwd path with
    | error e => simp [bind, Except.bind]
    | ok t =>
      obtain ⟨p, _ | _ | f⟩ := t <;> cases old <;>
        simp [bind, Except.bind, pure, Except.pure, throw, throwThe, MonadExceptOf.throw]

/-- A name under which a file can be written leads to the file that has been put there. -/
theorem writable_set (h : w.writable cwd path = .ok (place, old)) (f : File) :
    (w.set place (.file f)).writable cwd path = .ok (place, some f) := by
  obtain ⟨hslash, hresolve⟩ := writable_eq_ok.mp h
  refine writable_eq_ok.mpr ⟨hslash, ?_⟩
  have hentry : old.map Entry.file ≠ some .directory := by cases old <;> nofun
  unfold resolve at hresolve ⊢
  split_ifs at hresolve ⊢ <;> exact walk_set hresolve hentry f

/-- There is a file under a name, and it holds these bytes. -/
def Has (w : Workspace) (cwd : Place) (path : String) (data : List UInt8) : Prop :=
  ∃ place runnable, w.writable cwd path = .ok (place, some ⟨.bytes data, runnable⟩)

variable {data : List UInt8}

/-- More bytes go to the end of a file that is there. -/
theorem Has.append (h : w.Has cwd path data) (more : List UInt8) :
    ∃ w', w.append cwd path more = .ok w' ∧ w'.Has cwd path (data ++ more) := by
  obtain ⟨place, runnable, hwritable⟩ := h
  refine ⟨w.set place (.file ⟨.bytes (data ++ more), runnable⟩), ?_, _, _,
    writable_set hwritable _⟩
  unfold Workspace.append
  rw [hwritable]
  rfl

/-- A file that is there is read. -/
theorem Has.read (h : w.Has cwd path data) : w.read cwd path = .ok data := by
  obtain ⟨place, runnable, hwritable⟩ := h
  obtain ⟨-, hresolve⟩ := writable_eq_ok.mp hwritable
  unfold Workspace.read entry
  rw [hresolve]
  rfl

end Workspace

/-! ## Files of games -/

variable {w : Workspace} {cwd : Place} {path : String} {data : List UInt8}

/-- A line is added to a file of games that is there. -/
theorem Workspace.Has.addRecord (h : w.Has cwd path data) (line : String) :
    ∃ w', Host.addRecord w cwd path line = .ok w' ∧ w'.Has cwd path (data ++ Text.encode line) := by
  obtain ⟨w', happend, hhas⟩ := h.append (Text.encode line)
  refine ⟨w', ?_, hhas⟩
  unfold Host.addRecord
  rw [happend]
  rfl

end EngineDuel.Host
