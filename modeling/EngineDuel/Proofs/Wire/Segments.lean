import EngineDuel.Proofs.Text.Trim
import EngineDuel.Wire.Inbox

/-!
# Segments of an engine's output

What an engine sends for one command is a segment: any number of noise lines (`Incoming.IsNoise`),
and then one terminal unit (`Terminal`), which is a single line or a stream of lines. This module
says which lines these are and what a terminal unit stands for, without the code that reads them,
and proves that waiting for a reply takes one segment and no more (`awaitReply_segment`).

1. A line means what its trimmed text begins with (`Reply.ofLine_…`).
2. Inside a stream, no line ends it that has no mark of the end (`awaitStreamEnd_stream`).
3. A terminal unit at the head of the queue is taken as a whole (`awaitReply_terminal`).
4. Noise before it is passed over, and shows as remarks at most (`awaitReply_noise`).

Lines that begin with no whole segment are no reply: they run out (`awaitReply_unfinished`).
-/

namespace EngineDuel.Wire

/-! ## Noise -/

/-- A line that answers nothing: a line of the error output, or a line of the output that does not
begin with the sign of a reply. -/
def Incoming.IsNoise : Incoming → Prop
  | .line text => (Text.trim text.toList).head? ≠ some '=' ∧ (Text.trim text.toList).head? ≠ some '?'
  | .errorLine _ => True
  | .pause _ => False

instance : DecidablePred Incoming.IsNoise
  | .line text => inferInstanceAs (Decidable ((Text.trim text.toList).head? ≠ some '=' ∧
      (Text.trim text.toList).head? ≠ some '?'))
  | .errorLine _ => .isTrue trivial
  | .pause _ => .isFalse id

/-- What a noise line shows to those who listen. -/
def Incoming.remark? : Incoming → Option String
  | .line text =>
    if Text.trim text.toList = [] then none else some (String.ofList (Text.trim text.toList))
  | _ => none

/-! ## Terminal units -/

/-- A line that starts a stream, with this text on it. -/
def Opens (line first : List Char) : Prop :=
  Text.trim line = '=' :: streamStart :: first ∨ Text.trim line = '=' :: ' ' :: streamStart :: first

/-- A line that belongs to a stream and does not end it. -/
def Incoming.IsInner : Incoming → Prop
  | .line text => streamEnd ∉ text.toList
  | .errorLine _ => True
  | .pause _ => False

instance : DecidablePred Incoming.IsInner
  | .line text => inferInstanceAs (Decidable (streamEnd ∉ text.toList))
  | .errorLine _ => .isTrue trivial
  | .pause _ => .isFalse id

/-- What a line inside a stream adds to it. -/
def Incoming.inner? : Incoming → Option (List Char)
  | .line text => some (Inbox.streamLine text.toList)
  | _ => none

/-- The text on the line of a mark, which counts as a line of the stream unless it is empty. -/
def markLine (text : List Char) : List (List Char) := if text = [] then [] else [text]

/-- **The terminal units** of an engine's output and what they stand for: a payload or none, or the
message of a refusal. -/
inductive Terminal : List Incoming → Except String (Option String) → Prop
  /-- The command was carried out. -/
  | done {text : String} (h : Text.trim text.toList = ['=']) : Terminal [.line text] (.ok none)
  /-- The command was carried out, and the line carries a payload. -/
  | answer {text : String} {payload : List Char} (h : Text.trim text.toList = '=' :: payload)
      (hpayload : payload ≠ []) (plain : ∀ first, ¬ Opens text.toList first) :
      Terminal [.line text] (.ok (some (String.ofList (Text.trim payload))))
  /-- The command was refused. -/
  | refusal {text : String} {message : List Char} (h : Text.trim text.toList = '?' :: message) :
      Terminal [.line text] (.error (String.ofList (Text.trim message)))
  /-- Both marks of a stream stand on one line. -/
  | oneLine {text : String} {body more : List Char} (h : Opens text.toList (body ++ streamEnd :: more))
      (hbody : streamEnd ∉ body) : Terminal [.line text] (.ok (some (String.ofList body)))
  /-- A stream that ends on the first later line with the mark of the end. -/
  | stream {text last : String} {first body more : List Char} {inner : List Incoming}
      (h : Opens text.toList first) (hfirst : streamEnd ∉ first)
      (hinner : ∀ line ∈ inner, line.IsInner) (hlast : last.toList = body ++ streamEnd :: more)
      (hbody : streamEnd ∉ body) :
      Terminal (.line text :: (inner ++ [.line last])) (.ok (some (String.ofList
        (Text.join ['\n'] (markLine first ++ inner.filterMap Incoming.inner? ++ markLine body)))))

/-- A line with the sign of a reply is a terminal unit, or it starts a stream that a later line
has to end. -/
theorem terminal_or_opens {text : String} (h : ¬ (Incoming.line text).IsNoise) :
    (∃ said, Terminal [.line text] said) ∨ ∃ first, Opens text.toList first ∧ streamEnd ∉ first := by
  by_cases hopens : ∃ first, Opens text.toList first
  · obtain ⟨first, hfirst⟩ := hopens
    by_cases hend : streamEnd ∈ first
    · obtain ⟨body, more, rfl, hbody⟩ := List.eq_append_cons_of_mem hend
      exact .inl ⟨_, .oneLine hfirst hbody⟩
    · exact .inr ⟨first, hfirst, hend⟩
  · have hplain (first : List Char) : ¬ Opens text.toList first := fun h => hopens ⟨first, h⟩
    rw [Incoming.IsNoise, not_and_or, not_not, not_not, List.head?_eq_some_iff,
      List.head?_eq_some_iff] at h
    obtain ⟨payload, hpayload⟩ | ⟨message, hmessage⟩ := h
    · by_cases hnil : payload = []
      · exact .inl ⟨_, .done (hnil ▸ hpayload)⟩
      · exact .inl ⟨_, .answer hpayload hnil hplain⟩
    · exact .inl ⟨_, .refusal hmessage⟩

/-- Noise lines and the terminal unit after them. -/
structure Segment where
  noise : List Incoming
  unit : List Incoming
  /-- What the terminal unit stands for. -/
  said : Except String (Option String)
  isNoise : ∀ line ∈ noise, line.IsNoise
  terminal : Terminal unit said

namespace Segment

/-- The lines of a segment. -/
def lines (s : Segment) : List Incoming := s.noise ++ s.unit

/-- What the noise lines of a segment show. -/
def remarks (s : Segment) : List String := s.noise.filterMap Incoming.remark?

end Segment

theorem Segment.lines_ne_nil (s : Segment) : s.lines ≠ [] := by
  obtain ⟨noise, unit, said, -, hterminal⟩ := s
  have hunit : unit ≠ [] := by cases hterminal <;> exact List.cons_ne_nil _ _
  exact List.append_ne_nil_of_right_ne_nil _ hunit

/-- Any lines are segments, as far as there are whole ones, and what is left over. -/
theorem exists_segments (queue : List Incoming) :
    ∃ (segments : List Segment) (rest : List Incoming),
      queue = segments.flatMap Segment.lines ++ rest ∧
      ∀ (s : Segment) (more : List Incoming), rest ≠ s.lines ++ more := by
  induction hlength : queue.length using Nat.strong_induction_on generalizing queue with
  | _ n ih =>
    by_cases h : ∃ (s : Segment) (more : List Incoming), queue = s.lines ++ more
    · obtain ⟨s, more, rfl⟩ := h
      have hpos := List.length_pos_iff.2 s.lines_ne_nil
      have hlt : more.length < n := by
        rw [← hlength, List.length_append]
        omega
      obtain ⟨segments, rest, rfl, hrest⟩ := ih _ hlt more rfl
      exact ⟨s :: segments, rest, by rw [List.flatMap_cons, List.append_assoc], hrest⟩
    · push Not at h
      exact ⟨[], queue, rfl, h⟩

/-! ## The meaning of a line -/

namespace Reply

variable {line rest : List Char}

theorem ofLine_noise (hreply : (Text.trim line).head? ≠ some '=')
    (hrefusal : (Text.trim line).head? ≠ some '?') :
    ofLine line = if Text.trim line = [] then .blank else .remark (Text.trim line) := by
  unfold ofLine
  split
  · rw [if_pos ‹_›]
  · simp_all
  · simp_all
  · rw [if_neg ‹_›]

theorem ofLine_done (h : Text.trim line = ['=']) : ofLine line = .done := by
  unfold ofLine
  rw [h]
  rfl

theorem ofLine_refusal (h : Text.trim line = '?' :: rest) :
    ofLine line = .refusal (Text.trim rest) := by
  simp [ofLine, h]

theorem ofLine_opening (h : Opens line rest) : ofLine line = .opening rest := by
  unfold ofLine
  rcases h with h | h <;> rw [h] <;> rfl

/-- What follows the sign of success is a payload if it is neither blank nor the start of a
stream. -/
theorem ofSuccess_answer (hrest : Text.trim rest ≠ []) (hmark : ∀ first, rest ≠ streamStart :: first)
    (hspace : ∀ first, rest ≠ ' ' :: streamStart :: first) :
    ofSuccess rest = .answer (Text.trim rest) := by
  obtain _ | ⟨c, more⟩ := rest
  · exact absurd rfl hrest
  by_cases hc : c = ' '
  · subst hc
    rw [Text.trim_cons_of_blank (by decide)] at hrest ⊢
    obtain _ | ⟨d, more⟩ := more
    · exact absurd rfl hrest
    have hd : d ≠ streamStart := fun h => hspace more (by rw [h])
    simp only [ofSuccess, if_neg hd, if_neg hrest]
  · have hstart : c ≠ streamStart := fun h => hmark more (by rw [h])
    simp [ofSuccess, hc, hstart, hrest]

theorem ofLine_answer (h : Text.trim line = '=' :: rest) (hrest : rest ≠ [])
    (plain : ∀ first, ¬ Opens line first) : ofLine line = .answer (Text.trim rest) := by
  have hsuccess : ofLine line = ofSuccess rest := by
    simp [ofLine, h]
  rw [hsuccess]
  refine ofSuccess_answer (Text.trim_tail_ne_nil h hrest) (fun first hfirst => ?_)
    (fun first hfirst => ?_)
  · exact plain first (.inl (by rw [h, hfirst]))
  · exact plain first (.inr (by rw [h, hfirst]))

end Reply

/-! ## Waiting for a reply -/

/-- What a wait brought and left in the queue, the log apart. -/
structure Reading.Brings (r : Reading) (result : Except Missing (Option String))
    (remarks : List String) (rest : List Incoming) : Prop where
  result_eq : r.result = result
  remarks_eq : r.remarks = remarks
  rest_eq : r.rest = rest

namespace Reading.Brings

variable {r : Reading} {result : Except Missing (Option String)} {remarks : List String}
  {rest : List Incoming}

theorem withLog (h : r.Brings result remarks rest) (line : LogLine) :
    (r.withLog line).Brings result remarks rest :=
  ⟨h.result_eq, h.remarks_eq, h.rest_eq⟩

theorem withRemark (h : r.Brings result remarks rest) (text : String) :
    (r.withRemark text).Brings result (text :: remarks) rest :=
  ⟨h.result_eq, congrArg (text :: ·) h.remarks_eq, h.rest_eq⟩

end Reading.Brings

namespace Inbox

variable (label : String) (ended : Bool) (limit : Option Duration)

/-- A line without the mark of the end goes on with the stream. -/
theorem addToStream_of_notMem {line : List Char} (h : streamEnd ∉ line) (lines : Stream) :
    addToStream lines line = .inl (line :: lines) := by
  simp [addToStream, h]

/-- The first mark of the end ends the stream, whatever follows it on the line. -/
theorem addToStream_of_mark {body : List Char} (h : streamEnd ∉ body) (more : List Char)
    (lines : Stream) :
    addToStream lines (body ++ streamEnd :: more) =
      .inr (Text.join ['\n'] (lines.reverse ++ markLine body)) := by
  have hbody : ∀ c ∈ body, decide (c ≠ streamEnd) = true := fun c hc =>
    decide_eq_true fun heq => h (heq ▸ hc)
  have htake : (body ++ streamEnd :: more).takeWhile (· ≠ streamEnd) = body := by
    rw [List.takeWhile_append_of_pos hbody]
    simp
  have hmem : (body ++ streamEnd :: more).contains streamEnd = true := by simp
  simp only [addToStream, hmem, if_true, htake, markLine]
  by_cases hnil : body = []
  · simp only [if_pos hnil, List.append_nil]
  · simp only [if_neg hnil, List.reverse_cons]

/-- A carriage return at the end of a line is no part of what stands before a mark of the end. -/
theorem streamLine_of_mark (body more : List Char) :
    ∃ more', streamLine (body ++ streamEnd :: more) = body ++ streamEnd :: more' := by
  unfold streamLine
  split
  next hreturn =>
    have hmore : more ≠ [] := by
      rintro rfl
      simp [streamEnd] at hreturn
    refine ⟨more.dropLast, ?_⟩
    rw [List.dropLast_append_of_ne_nil (List.cons_ne_nil _ _), List.dropLast_cons_of_ne_nil hmore]
  next => exact ⟨more, rfl⟩

theorem notMem_streamLine {line : List Char} (h : streamEnd ∉ line) :
    streamEnd ∉ streamLine line := by
  unfold streamLine
  split
  · exact fun hmem => h (List.dropLast_subset _ hmem)
  · exact h

/-- **The end of a stream.** Lines without a mark of the end go on with the stream, lines of the
error output have no part in it, and the first line with the mark ends it. -/
theorem awaitStreamEnd_stream {inner : List Incoming} (hinner : ∀ line ∈ inner, line.IsInner)
    {last : String} {body more : List Char} (hlast : last.toList = body ++ streamEnd :: more)
    (hbody : streamEnd ∉ body) (rest : List Incoming) (lines : Stream) :
    (awaitStreamEnd label ended (inner ++ .line last :: rest) limit lines).Brings
      (.ok (some (String.ofList (Text.join ['\n']
        (lines.reverse ++ inner.filterMap Incoming.inner? ++ markLine body))))) [] rest := by
  induction inner generalizing lines with
  | nil =>
    obtain ⟨more', hmore⟩ := streamLine_of_mark body more
    simp only [List.nil_append, awaitStreamEnd, hlast, hmore, addToStream_of_mark hbody]
    exact .withLog ⟨by simp, rfl, rfl⟩ _
  | cons line inner ih =>
    have hrest := ih fun l hl => hinner l (List.mem_cons_of_mem _ hl)
    have hline := hinner line List.mem_cons_self
    cases line with
    | line text =>
      have hgoes := addToStream_of_notMem (notMem_streamLine hline) lines
      simp only [List.cons_append, awaitStreamEnd, hgoes]
      have := hrest (streamLine text.toList :: lines)
      simp only [List.reverse_cons, List.append_assoc, List.singleton_append] at this
      simpa [Incoming.inner?] using this.withLog (lineNote label text)
    | errorLine text => exact (hrest lines).withLog _
    | pause length => exact hline.elim

theorem openStream_of_notMem {first : List Char} (h : streamEnd ∉ first) :
    openStream first = .inl (markLine first) := by
  unfold openStream markLine
  by_cases hnil : first = []
  · rw [if_pos hnil, if_pos hnil]
  · rw [if_neg hnil, if_neg hnil, addToStream_of_notMem h]

theorem openStream_of_mark {body : List Char} (h : streamEnd ∉ body) (more : List Char) :
    openStream (body ++ streamEnd :: more) = .inr body := by
  have hone : Text.join ['\n'] (markLine body) = body := by
    unfold markLine
    by_cases hnil : body = []
    · rw [if_pos hnil, hnil]
      rfl
    · rw [if_neg hnil]
      rfl
  rw [openStream, if_neg (by simp), addToStream_of_mark h]
  simp only [List.reverse_nil, List.nil_append, hone]

/-- **One unit is taken.** Waiting at a terminal unit brings what the unit stands for, and leaves
what comes after it. -/
theorem awaitReply_terminal {unit : List Incoming} {said : Except String (Option String)}
    (h : Terminal unit said) (rest : List Incoming) :
    (awaitReply label ended (unit ++ rest) limit).Brings (said.mapError .refused) [] rest := by
  cases h with
  | done h =>
    simp only [List.singleton_append, awaitReply, Reply.ofLine_done h]
    exact ⟨rfl, rfl, rfl⟩
  | answer h hpayload plain =>
    simp only [List.singleton_append, awaitReply, Reply.ofLine_answer h hpayload plain]
    exact ⟨rfl, rfl, rfl⟩
  | refusal h =>
    simp only [List.singleton_append, awaitReply, Reply.ofLine_refusal h]
    exact ⟨rfl, rfl, rfl⟩
  | oneLine h hbody =>
    simp only [List.singleton_append, awaitReply, Reply.ofLine_opening h, openStream_of_mark hbody]
    exact ⟨rfl, rfl, rfl⟩
  | @stream text last first body more inner h hfirst hinner hlast hbody =>
    have hreverse : (markLine first).reverse = markLine first := by
      unfold markLine
      split <;> rfl
    have hend := awaitStreamEnd_stream label ended limit hinner hlast hbody rest (markLine first)
    rw [hreverse] at hend
    have hqueue : .line text :: (inner ++ [.line last]) ++ rest =
        .line text :: (inner ++ .line last :: rest) := by
      simp only [List.cons_append, List.append_assoc, List.nil_append]
    simp only [hqueue, awaitReply, Reply.ofLine_opening h, openStream_of_notMem hfirst]
    exact hend.withLog (lineNote label text)

/-- **Noise is passed over.** Noise lines add their remarks, and nothing else, to what comes after
them. -/
theorem awaitReply_noise {noise : List Incoming} (hnoise : ∀ line ∈ noise, line.IsNoise)
    {queue : List Incoming} {result : Except Missing (Option String)} {remarks : List String}
    {rest : List Incoming} (h : (awaitReply label ended queue limit).Brings result remarks rest) :
    (awaitReply label ended (noise ++ queue) limit).Brings result
      (noise.filterMap Incoming.remark? ++ remarks) rest := by
  induction noise with
  | nil => exact h
  | cons line noise ih =>
    have hrest := ih fun l hl => hnoise l (List.mem_cons_of_mem _ hl)
    have hline := hnoise line List.mem_cons_self
    cases line with
    | line text =>
      simp only [List.cons_append, awaitReply, Reply.ofLine_noise hline.1 hline.2]
      by_cases hblank : Text.trim text.toList = []
      · simpa [hblank, Incoming.remark?] using hrest.withLog (lineNote label text)
      · simpa [hblank, Incoming.remark?] using
          (hrest.withRemark (String.ofList (Text.trim text.toList))).withLog (lineNote label text)
    | errorLine text => exact hrest.withLog _
    | pause length => exact hline.elim

/-- **One segment is taken.** -/
theorem awaitReply_segment (s : Segment) (rest : List Incoming) :
    (awaitReply label ended (s.lines ++ rest) limit).Brings (s.said.mapError .refused) s.remarks
      rest := by
  have h := awaitReply_noise label ended limit s.isNoise
    (awaitReply_terminal label ended limit s.terminal rest)
  rwa [← List.append_assoc, List.append_nil] at h

/-! ## Waiting in vain -/

/-- Without a mark of the end the lines run out. -/
theorem awaitStreamEnd_endless {queue : List Incoming} (h : ∀ line ∈ queue, line.IsInner)
    (lines : Stream) :
    (awaitStreamEnd label true queue none lines).Brings (.error .ended) [] [] := by
  induction queue generalizing lines with
  | nil => exact ⟨rfl, rfl, rfl⟩
  | cons line queue ih =>
    have hrest := ih fun l hl => h l (List.mem_cons_of_mem _ hl)
    have hline := h line List.mem_cons_self
    cases line with
    | line text =>
      simp only [awaitStreamEnd, addToStream_of_notMem (notMem_streamLine hline)]
      exact (hrest _).withLog _
    | errorLine text => exact (hrest lines).withLog _
    | pause length => exact hline.elim

/-- Otherwise there is a first line with the mark. -/
theorem exists_closing {queue : List Incoming} (hpause : ∀ d, .pause d ∉ queue)
    (h : ¬ ∀ line ∈ queue, line.IsInner) :
    ∃ inner text more, queue = inner ++ .line text :: more ∧ (∀ line ∈ inner, line.IsInner) ∧
      streamEnd ∈ text.toList := by
  induction queue with
  | nil => exact absurd (List.forall_mem_nil _) h
  | cons line queue ih =>
    by_cases hline : line.IsInner
    · obtain ⟨inner, text, more, rfl, hinner, hend⟩ :=
        ih (fun d hd => hpause d (List.mem_cons_of_mem _ hd))
          fun hall => h (List.forall_mem_cons.2 ⟨hline, hall⟩)
      exact ⟨line :: inner, text, more, rfl, List.forall_mem_cons.2 ⟨hline, hinner⟩, hend⟩
    · cases line with
      | line text => exact ⟨[], text, queue, rfl, List.forall_mem_nil _, not_not.1 hline⟩
      | errorLine text => exact absurd trivial hline
      | pause length => exact absurd List.mem_cons_self (hpause length)

/-- **Half a reply is none.** Lines that begin with no whole segment run out. -/
theorem awaitReply_unfinished {queue : List Incoming} (hpause : ∀ d, .pause d ∉ queue)
    (h : ∀ (s : Segment) (more : List Incoming), queue ≠ s.lines ++ more) :
    ∃ remarks, (awaitReply label true queue none).Brings (.error .ended) remarks [] := by
  induction queue with
  | nil => exact ⟨[], rfl, rfl, rfl⟩
  | cons line queue ih =>
    have hqueue (d : Duration) : .pause d ∉ queue := fun hd => hpause d (List.mem_cons_of_mem _ hd)
    by_cases hnoise : line.IsNoise
    · have hsingle : ∀ l ∈ [line], l.IsNoise := List.forall_mem_singleton.2 hnoise
      obtain ⟨remarks, hrest⟩ := ih hqueue fun s more heq =>
        h ⟨line :: s.noise, s.unit, s.said, List.forall_mem_cons.2 ⟨hnoise, s.isNoise⟩, s.terminal⟩
          more (congrArg (line :: ·) heq)
      exact ⟨_, awaitReply_noise label true none hsingle hrest⟩
    · cases line with
      | errorLine text => exact absurd trivial hnoise
      | pause length => exact absurd List.mem_cons_self (hpause length)
      | line text =>
        obtain ⟨said, hterminal⟩ | ⟨first, hopens, hfirst⟩ := terminal_or_opens hnoise
        · exact absurd rfl (h ⟨[], [.line text], said, nofun, hterminal⟩ queue)
        -- a stream, which a later line ends or no line does
        by_cases hinner : ∀ l ∈ queue, l.IsInner
        · simp only [awaitReply, Reply.ofLine_opening hopens, openStream_of_notMem hfirst]
          exact ⟨[], (awaitStreamEnd_endless label hinner _).withLog _⟩
        · obtain ⟨inner, last, more, rfl, hbefore, hend⟩ := exists_closing hqueue hinner
          obtain ⟨body, behind, hlast, hbody⟩ := List.eq_append_cons_of_mem hend
          have hterminal := Terminal.stream hopens hfirst hbefore hlast hbody
          refine absurd ?_ (h ⟨[], _, _, nofun, hterminal⟩ more)
          simp only [Segment.lines, List.nil_append, List.cons_append, List.append_assoc]

end Inbox

end EngineDuel.Wire
