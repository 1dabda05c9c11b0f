import EngineDuel.Text.Raw
import Mathlib.Data.List.TakeWhile

/-!
# The lines of an encoded text

Only the line feed is encoded with the byte of a line feed, and only the carriage return with the
byte of a carriage return (`byte_mem_iff`). So the lines of the bytes of a text are the bytes of the
lines of the text (`byteLines_encode`), and all of them can be read (`readableLines_encode`).
-/

namespace EngineDuel.Text

variable {α β : Type}

/-! ## Pieces -/

theorem splitAt_eq_splitOnP (p : α → Bool) (s : List α) : splitAt p s = s.splitOnP p := by
  induction s with
  | nil => rfl
  | cons a rest ih =>
    rw [splitAt, List.splitOnP_cons_eq_if_modifyHead, ← ih]
    obtain ⟨piece, pieces, heq⟩ := List.exists_cons_of_ne_nil (splitAt_ne_nil p rest)
    rw [heq]
    rfl

theorem splitAt_append_cons {p : α → Bool} {a : α} (s t : List α) (h : p a = true) :
    splitAt p (s ++ a :: t) = splitAt p s ++ splitAt p t := by
  rw [splitAt_eq_splitOnP, splitAt_eq_splitOnP, splitAt_eq_splitOnP,
    List.splitOnP_append_cons _ _ h]

theorem splitAt_eq_singleton {p : α → Bool} {s : List α} (h : ∀ a ∈ s, p a = false) :
    splitAt p s = [s] := by
  rw [splitAt_eq_splitOnP, List.splitOnP_eq_singleton h]

/-- A list without the separator is one piece. -/
theorem splitAt_of_not_mem [BEq α] [LawfulBEq α] {a : α} {s : List α} (h : a ∉ s) :
    splitAt (· == a) s = [s] :=
  splitAt_eq_singleton fun _ hb => beq_false_of_ne fun heq => h (heq ▸ hb)

/-- What holds no separator goes to the first piece. -/
theorem splitAt_append {p : α → Bool} {s t piece : List α} {pieces : List (List α)}
    (hs : ∀ a ∈ s, p a = false) (ht : splitAt p t = piece :: pieces) :
    splitAt p (s ++ t) = (s ++ piece) :: pieces := by
  induction s with
  | nil => exact ht
  | cons a rest ih =>
    rw [List.cons_append, splitAt, hs a (List.mem_cons_self ..),
      ih fun b hb => hs b (List.mem_cons_of_mem _ hb)]
    rfl

/-- What holds no separator goes to the last piece as well. -/
theorem exists_splitAt_append {p : α → Bool} {s t : List α} (ht : ∀ a ∈ t, p a = false) :
    ∃ pieces last, splitAt p (s ++ t) = pieces ++ [last ++ t] := by
  induction s with
  | nil => exact ⟨[], [], splitAt_eq_singleton ht⟩
  | cons a rest ih =>
    obtain ⟨pieces, last, heq⟩ := ih
    rw [List.cons_append, splitAt, heq]
    cases p a with
    | true => exact ⟨[] :: pieces, last, rfl⟩
    | false =>
      cases pieces with
      | nil => exact ⟨[], a :: last, rfl⟩
      | cons piece pieces => exact ⟨(a :: piece) :: pieces, last, rfl⟩

/-- If each separator is written as a separator, and nothing else is written with one, the pieces of
what is written are what the pieces are written as. -/
theorem splitAt_flatMap {p : α → Bool} {q : β → Bool} {f : α → List β}
    (hsep : ∀ a, p a = true → ∃ b, f a = [b] ∧ q b = true)
    (hother : ∀ a, p a = false → ∀ b ∈ f a, q b = false) (s : List α) :
    splitAt q (s.flatMap f) = (splitAt p s).map (List.flatMap f) := by
  induction s with
  | nil => rfl
  | cons a rest ih =>
    rw [List.flatMap_cons, splitAt]
    cases ha : p a with
    | true =>
      obtain ⟨b, hb, hq⟩ := hsep a ha
      rw [hb, if_pos rfl, List.singleton_append, splitAt, if_pos hq, ih]
      rfl
    | false =>
      obtain ⟨piece, pieces, heq⟩ := List.exists_cons_of_ne_nil (splitAt_ne_nil p rest)
      rw [heq] at ih ⊢
      rw [splitAt_append (hother a ha) ih]
      rfl

/-! ## Bytes of characters -/

theorem utf8EncodeChar_of_lt {c : Char} (h : c.toNat < 128) :
    String.utf8EncodeChar c = [UInt8.ofNat c.toNat] :=
  if_pos (Nat.le_of_lt_succ h)

theorem le_of_mem_utf8EncodeChar {c : Char} (h : 128 ≤ c.toNat) {b : UInt8}
    (hb : b ∈ String.utf8EncodeChar c) : 128 ≤ b.toNat := by
  have hbyte (n m : ℕ) (hm : 128 ≤ m) (hn : n + m < 256) : 128 ≤ (UInt8.ofNat (n + m)).toNat := by
    rw [UInt8.toNat_ofNat', Nat.mod_eq_of_lt hn]
    omega
  have hc : ¬c.val.toNat ≤ 127 := Nat.not_le.2 h
  unfold String.utf8EncodeChar at hb
  dsimp only at hb
  rw [if_neg hc] at hb
  split_ifs at hb
  all_goals
    simp only [List.mem_cons, List.not_mem_nil, or_false] at hb
    rcases hb with rfl | rfl | rfl | rfl <;> exact hbyte _ _ (by omega) (by omega)

/-- The byte of a character below 128 stands for this character only. -/
theorem byte_mem_iff {a c : Char} (ha : a.toNat < 128) :
    UInt8.ofNat a.toNat ∈ String.utf8EncodeChar c ↔ c = a := by
  have hbyte (d : Char) (hd : d.toNat < 128) : (UInt8.ofNat d.toNat).toNat = d.toNat := by
    rw [UInt8.toNat_ofNat', Nat.mod_eq_of_lt (by omega)]
  constructor
  · intro h
    rcases Nat.lt_or_ge c.toNat 128 with hc | hc
    · rw [utf8EncodeChar_of_lt hc, List.mem_singleton] at h
      have heq := congrArg UInt8.toNat h
      rw [hbyte a ha, hbyte c hc] at heq
      exact (Char.toNat_inj.1 heq).symm
    · have hle := le_of_mem_utf8EncodeChar hc h
      rw [hbyte a ha] at hle
      omega
  · rintro rfl
    rw [utf8EncodeChar_of_lt ha]
    exact List.mem_singleton_self _

/-! ## Bytes of texts -/

theorem toList_loop_eq (bytes : ByteArray) (i : ℕ) (found : List UInt8) :
    ByteArray.toList.loop bytes i found = found.reverse ++ bytes.data.toList.drop i := by
  fun_induction ByteArray.toList.loop bytes i found with
  | case1 i found h ih =>
    have hi : i < bytes.data.toList.length := by simpa using h
    have hget : bytes.get! i = bytes.data.toList[i] := by
      rw [Array.getElem_toList]
      exact getElem!_pos bytes.data i h
    rw [ih, List.drop_eq_getElem_cons hi, hget, List.reverse_cons, List.append_assoc]
    rfl
  | case2 i found h =>
    rw [List.drop_eq_nil_of_le (by simpa using Nat.le_of_not_lt h), List.append_nil]

theorem toList_eq (bytes : ByteArray) : bytes.toList = bytes.data.toList := by
  rw [ByteArray.toList, toList_loop_eq]
  rfl

theorem encode_ofList (s : List Char) :
    encode (String.ofList s) = s.flatMap String.utf8EncodeChar := by
  rw [encode, String.toUTF8, toList_eq, String.toByteArray_ofList, List.utf8Encode,
    List.toList_data_toByteArray]

theorem encode_eq (text : String) : encode text = text.toList.flatMap String.utf8EncodeChar := by
  rw [← encode_ofList, String.ofList_toList]

theorem encode_append (s t : String) : encode (s ++ t) = encode s ++ encode t := by
  rw [encode_eq, encode_eq, encode_eq, String.toList_append, List.flatMap_append]

/-- Only a line feed is encoded with the byte of one. -/
theorem lineFeed_mem_encode {text : String} : lineFeed ∈ encode text ↔ '\n' ∈ text.toList := by
  have hbyte (c : Char) : lineFeed ∈ String.utf8EncodeChar c ↔ c = '\n' :=
    byte_mem_iff (a := '\n') (by decide)
  simp only [encode_eq, List.mem_flatMap, hbyte, exists_eq_right]

/-- An encoded text is decoded again. -/
theorem decode?_encode (text : String) : decode? (encode text) = some text := by
  have hbytes : ByteArray.mk (encode text).toArray = text.toByteArray := by
    rw [encode, toList_eq, Array.toArray_toList]
    rfl
  rw [decode?, hbytes, String.fromUTF8?, dif_pos text.isValidUTF8]
  rfl

theorem decode?_eq_some_iff {bytes : List UInt8} {text : String} :
    decode? bytes = some text ↔ encode text = bytes := by
  refine ⟨fun h => ?_, fun h => h ▸ decode?_encode text⟩
  unfold decode? String.fromUTF8? at h
  split at h
  · rw [← Option.some.inj h, encode, toList_eq]
    rfl
  · cases h

theorem encode_singleton {a : Char} (ha : a.toNat < 128) :
    encode (String.ofList [a]) = [UInt8.ofNat a.toNat] := by
  rw [encode_ofList, List.flatMap_singleton, utf8EncodeChar_of_lt ha]

/-- Whether bytes are UTF-8 does not depend on an ASCII character behind them. -/
theorem decode?_concat {a : Char} (ha : a.toNat < 128) (bytes : List UInt8) :
    decode? (bytes ++ [UInt8.ofNat a.toNat]) = (decode? bytes).map (· ++ String.ofList [a]) := by
  ext text
  rw [decode?_eq_some_iff, Option.map_eq_some_iff]
  constructor
  · intro h
    rw [encode_eq] at h
    rcases List.eq_nil_or_concat text.toList with hnil | ⟨s, c, hsplit⟩
    · rw [hnil] at h
      exact absurd h.symm (List.append_ne_nil_of_right_ne_nil _ nofun)
    rw [List.concat_eq_append] at hsplit
    rw [hsplit, List.flatMap_append, List.flatMap_singleton] at h
    have hlast := congrArg List.getLast? h
    rw [List.getLast?_concat, List.getLast?_append,
      List.getLast?_eq_some_getLast String.utf8EncodeChar_ne_nil, Option.some_or,
      ← List.getLast?_eq_some_getLast] at hlast
    obtain rfl := (byte_mem_iff ha).1 (List.mem_of_getLast? hlast)
    rw [utf8EncodeChar_of_lt ha, List.append_cancel_right_eq] at h
    refine ⟨String.ofList s, decode?_eq_some_iff.2 (by rw [encode_ofList, h]), ?_⟩
    rw [← String.ofList_append, ← hsplit, String.ofList_toList]
  · rintro ⟨front, hfront, rfl⟩
    rw [encode_append, encode_singleton ha, decode?_eq_some_iff.1 hfront]

/-! ## Lines -/

/-- A line of characters without one carriage return at its end. -/
def withoutReturn (line : List Char) : List Char :=
  if line.getLast? = some '\r' then line.dropLast else line

/-- The lines of a text: what `byteLines` is for bytes. -/
def charLines (s : List Char) : List (List Char) :=
  let pieces := splitAt (· == '\n') s
  let last := pieces.getLast?.getD []
  pieces.dropLast.map withoutReturn ++ (if last.isEmpty then [] else [last])

theorem splitAt_lineFeed (s : List Char) :
    splitAt (· == lineFeed) (s.flatMap String.utf8EncodeChar) =
      (splitAt (· == '\n') s).map (List.flatMap String.utf8EncodeChar) := by
  refine splitAt_flatMap ?_ ?_ s
  · intro c hc
    rw [eq_of_beq hc]
    exact ⟨lineFeed, rfl, rfl⟩
  · intro c hc b hb
    refine beq_eq_false_iff_ne.2 ?_
    rintro rfl
    exact beq_eq_false_iff_ne.1 hc ((byte_mem_iff (a := '\n') (by decide)).1 hb)

theorem dropReturn_flatMap (line : List Char) :
    dropReturn (line.flatMap String.utf8EncodeChar) =
      (withoutReturn line).flatMap String.utf8EncodeChar := by
  rcases List.eq_nil_or_concat line with rfl | ⟨line, c, rfl⟩
  · rfl
  rw [List.concat_eq_append, withoutReturn, List.getLast?_concat, dropReturn, List.flatMap_append,
    List.flatMap_singleton]
  by_cases hc : c = '\r'
  · subst hc
    have hcode : String.utf8EncodeChar '\r' = [carriageReturn] := rfl
    rw [hcode, List.getLast?_concat, if_pos rfl, if_pos rfl, List.dropLast_concat,
      List.dropLast_concat]
  · have hlast : (line.flatMap String.utf8EncodeChar ++ String.utf8EncodeChar c).getLast? ≠
        some carriageReturn := by
      intro h
      rw [List.getLast?_append, List.getLast?_eq_some_getLast String.utf8EncodeChar_ne_nil,
        Option.some_or, ← List.getLast?_eq_some_getLast] at h
      exact hc ((byte_mem_iff (a := '\r') (by decide)).1 (List.mem_of_getLast? h))
    rw [if_neg hlast, if_neg (by simpa using hc), List.flatMap_append, List.flatMap_singleton]

/-- The lines of an encoded text are the encoded lines of the text. -/
theorem byteLines_flatMap (s : List Char) :
    byteLines (s.flatMap String.utf8EncodeChar) =
      (charLines s).map (List.flatMap String.utf8EncodeChar) := by
  have hempty (l : List Char) : (l.flatMap String.utf8EncodeChar).isEmpty = l.isEmpty := by
    cases l with
    | nil => rfl
    | cons c rest => simp [String.utf8EncodeChar_ne_nil]
  have hlast (pieces : List (List Char)) :
      (pieces.getLast?.map (List.flatMap String.utf8EncodeChar)).getD [] =
        (pieces.getLast?.getD []).flatMap String.utf8EncodeChar := by
    cases pieces.getLast? <;> rfl
  unfold byteLines charLines
  dsimp only
  rw [splitAt_lineFeed, List.getLast?_map, hlast, hempty, List.map_append, ← List.map_dropLast,
    List.map_map, List.map_map, Function.comp_def, Function.comp_def]
  simp only [dropReturn_flatMap]
  split_ifs <;> rfl

/-- **Each line of an encoded text is read.** -/
theorem readableLines_encode (text : String) :
    readableLines (encode text) = (charLines text.toList).map String.ofList ∧
      (byteLines (encode text)).length = (charLines text.toList).length := by
  have hdecode (line : List Char) :
      decode? (line.flatMap String.utf8EncodeChar) = some (String.ofList line) := by
    rw [← encode_ofList, decode?_encode]
  rw [readableLines, encode_eq, byteLines_flatMap, List.map_map, List.length_map]
  refine ⟨?_, rfl⟩
  have hmap : decode? ∘ List.flatMap String.utf8EncodeChar = some ∘ String.ofList :=
    funext hdecode
  rw [hmap, List.takeWhile_eq_self_iff.2 (by simp), ← List.map_map, List.filterMap_map]
  exact List.filterMap_some

/-! ## The first line -/

theorem byteLines_cons {line : List UInt8} (h : lineFeed ∉ line) (rest : List UInt8) :
    byteLines (line ++ lineFeed :: rest) = dropReturn line :: byteLines rest := by
  have hsingle : splitAt (· == lineFeed) line = [line] := splitAt_of_not_mem h
  have hne : splitAt (· == lineFeed) rest ≠ [] := splitAt_ne_nil _ rest
  have hsplit : splitAt (· == lineFeed) (line ++ lineFeed :: rest) =
      [line] ++ splitAt (· == lineFeed) rest := by
    rw [← hsingle]
    exact splitAt_append_cons line rest (beq_self_eq_true lineFeed)
  unfold byteLines
  rw [hsplit]
  dsimp only
  rw [List.dropLast_append_of_ne_nil hne, List.getLast?_append,
    List.getLast?_eq_some_getLast hne, Option.some_or, List.map_append]
  rfl

theorem byteLines_last {line : List UInt8} (h : lineFeed ∉ line) :
    byteLines line = if line.isEmpty then [] else [line] := by
  unfold byteLines
  rw [splitAt_of_not_mem h]
  rfl

theorem readableLines_of_byteLines {bytes line rest : List UInt8}
    (h : byteLines bytes = line :: byteLines rest) :
    readableLines bytes = match decode? line with
      | some text => text :: readableLines rest
      | none => [] := by
  unfold readableLines
  rw [h, List.map_cons]
  cases decode? line <;> rfl

/-! ## Texts made of lines -/

theorem charLines_append (line rest : List Char) :
    charLines (line ++ '\n' :: rest) =
      (splitAt (· == '\n') line).map withoutReturn ++ charLines rest := by
  have hne : splitAt (· == '\n') rest ≠ [] := splitAt_ne_nil _ rest
  have hsplit : splitAt (· == '\n') (line ++ '\n' :: rest) =
      splitAt (· == '\n') line ++ splitAt (· == '\n') rest :=
    splitAt_append_cons line rest (beq_self_eq_true '\n')
  unfold charLines
  rw [hsplit]
  dsimp only
  rw [List.dropLast_append_of_ne_nil hne, List.getLast?_append,
    List.getLast?_eq_some_getLast hne, Option.some_or, List.map_append, List.append_assoc]

/-- A last line that ends no earlier line and has no end of its own in it. -/
theorem charLines_lines (lines : List (List Char)) {last : List Char} (hfeed : '\n' ∉ last)
    (hreturn : last.getLast? ≠ some '\r') :
    ∃ before, charLines (lines.flatMap (· ++ ['\n']) ++ (last ++ ['\n'])) = before ++ [last] := by
  induction lines with
  | nil =>
    refine ⟨[], ?_⟩
    rw [List.flatMap_nil, List.nil_append, charLines_append, splitAt_of_not_mem hfeed,
      List.map_singleton, withoutReturn, if_neg hreturn]
    rfl
  | cons line lines ih =>
    obtain ⟨before, hbefore⟩ := ih
    rw [List.flatMap_cons, List.append_assoc, List.append_assoc, List.singleton_append,
      charLines_append, hbefore, ← List.append_assoc]
    exact ⟨_, rfl⟩

/-- A number is written on one line. -/
theorem not_lineEnd_of_mem_nat {n : Nat} {c : Char} (h : c ∈ (toString n).toList) :
    c ≠ '\n' ∧ c ≠ '\r' := by
  have hdigits : (toString n).toList = Nat.toDigits 10 n := String.toList_ofList
  rw [hdigits] at h
  have hdigit := Nat.isDigit_of_mem_toDigits (by decide) (by decide) h
  constructor <;>
  · rintro rfl
    cases hdigit

/-! ## Octets -/

theorem ofOctets_octets (data : List UInt8) : ofOctets (octets data) = data := by
  have hbyte (b : UInt8) : UInt8.ofNat (Char.ofNat b.toNat).toNat = b := by
    have hvalid : b.toNat.isValidChar := .inl (Nat.lt_trans b.toNat_lt (by decide))
    rw [Char.ofNat, dif_pos hvalid]
    exact UInt8.ofNat_toNat
  rw [ofOctets, octets, List.map_map]
  exact (List.map_congr_left fun b _ => hbyte b).trans (List.map_id _)

end EngineDuel.Text

namespace EngineDuel.RawText

/-! ## Texts of the system -/

/-- Only bytes in UTF-8 are a text. -/
theorem text?_eq (t : RawText) : t.text? = Text.decode? t.bytes := by
  cases t with
  | text s => exact (Text.decode?_encode s).symm
  | other bytes h => exact h.symm

/-- **A text of the system is its bytes**, whatever they are. -/
theorem bytes_ofBytes (data : List UInt8) : (ofBytes data).bytes = data := by
  unfold ofBytes
  split
  · next s h => exact Text.decode?_eq_some_iff.mp h
  · rfl

theorem ofBytes_bytes (t : RawText) : ofBytes t.bytes = t := by
  have htext := text?_eq t
  unfold ofBytes
  split
  · next s h =>
    rw [h] at htext
    cases t with
    | text s' => exact congrArg text (Option.some.inj htext).symm
    | other bytes hbytes => cases htext
  · next h =>
    rw [h] at htext
    cases t with
    | text s => cases htext
    | other bytes hbytes => rfl

/-- Octets are the bytes that they stand for. -/
theorem ofOctets_octets (t : RawText) : ofOctets t.octets = t := by
  rw [ofOctets, octets, Text.ofOctets_octets, ofBytes_bytes]

/-- A text is what it is taken apart into. -/
theorem ofLetters_letters (t : RawText) : t.ofLetters t.letters = t := by
  cases t with
  | text s => exact congrArg text (String.ofList_toList)
  | other bytes h => exact ofOctets_octets (other bytes h)

end EngineDuel.RawText
