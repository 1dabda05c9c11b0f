import EngineDuel.Proofs.Text.Words
import EngineDuel.Proofs.Wire.InStep

/-!
# Texts of several lines

An engine that has a text of several lines to show sends it as a stream. `streams_verbatim`: the
lines between the marks arrive as they are, with their blanks at the beginning, the blank lines among
them and whatever looks like a reply; only the lines of the two marks do not count if nothing stands
on them. So a text that is sent with the marks on lines of their own arrives as it is.

The lines of a stream are a terminal unit (`terminal_streamLines`), and so is a line with both marks
(`terminal_oneLine`), and a client takes a terminal unit as a whole (`Client.request_segment`).
-/

namespace EngineDuel.Wire

/-! ## The lines of a stream -/

/-- A line with the mark of the start, and a text after it. -/
def openingLine (first : List Char) : Incoming :=
  .line (String.ofList ('=' :: streamStart :: first))

/-- A line with the mark of the end, a text before it and anything after it. -/
def closingLine (last more : List Char) : Incoming :=
  .line (String.ofList (last ++ streamEnd :: more))

/-- A line between the marks. -/
def innerLine (line : List Char) : Incoming := .line (String.ofList line)

/-- The lines of a stream. -/
def streamLines (first : List Char) (middle : List (List Char)) (last more : List Char) :
    List Incoming :=
  openingLine first :: (middle.map innerLine ++ [closingLine last more])

/-- A line that can stand between the marks as it is. -/
def Verbatim (line : List Char) : Prop := streamEnd ∉ line ∧ line.getLast? ≠ some '\r'

variable {first last body : List Char} {middle : List (List Char)}

/-- A line begins with the mark of the start, and blanks at its end have no meaning. -/
theorem opens_of_trimEnd (rest : List Char) :
    Opens ('=' :: streamStart :: rest) (Text.trimEnd rest) := by
  left
  rw [Text.trim_cons (by decide), Text.trimEnd_cons (.inl (by decide))]

/-- The lines of a stream without a mark of the end inside are a terminal unit. -/
theorem terminal_streamLines (hfirst : streamEnd ∉ first)
    (hblank : ∀ c ∈ first.getLast?, Text.isBlank c = false) (hmiddle : ∀ line ∈ middle, Verbatim line)
    (hlast : streamEnd ∉ last) (more : List Char) :
    Terminal (streamLines first middle last more) (.ok (some (String.ofList
      (Text.join ['\n'] (markLine first ++ middle ++ markLine last))))) := by
  have hopens : Opens (String.ofList ('=' :: streamStart :: first)).toList first := by
    rw [String.toList_ofList]
    have hopens := opens_of_trimEnd first
    rwa [Text.trimEnd_eq_self hblank] at hopens
  have hinner : ∀ line ∈ middle.map innerLine, line.IsInner := by
    intro line hline
    obtain ⟨text, htext, rfl⟩ := List.mem_map.mp hline
    show streamEnd ∉ (String.ofList text).toList
    rw [String.toList_ofList]
    exact (hmiddle text htext).1
  have hsame : (middle.map innerLine).filterMap Incoming.inner? = middle := by
    rw [List.filterMap_map, List.filterMap_congr (g := some), List.filterMap_some]
    intro line hline
    show some (Inbox.streamLine (String.ofList line).toList) = some line
    rw [String.toList_ofList, Inbox.streamLine, if_neg (hmiddle line hline).2]
  have hclosing : (String.ofList (last ++ streamEnd :: more)).toList = last ++ streamEnd :: more :=
    String.toList_ofList
  have hstream := Terminal.stream hopens hfirst hinner hclosing hlast
  rwa [hsame] at hstream

/-- A line with both marks is a terminal unit. -/
theorem terminal_oneLine (hbody : streamEnd ∉ body) (more : List Char) :
    Terminal [openingLine (body ++ streamEnd :: more)] (.ok (some (String.ofList body))) := by
  have hopens : Opens (String.ofList ('=' :: streamStart :: (body ++ streamEnd :: more))).toList
      (body ++ streamEnd :: Text.trimEnd more) := by
    rw [String.toList_ofList, ← Text.trimEnd_append_cons (by decide)]
    exact opens_of_trimEnd _
  exact .oneLine hopens hbody

/-! ## Reading a stream -/

/-- If these lines wait, and anything after them, the client takes them as the reply to the command:
with this text, and without a remark. -/
def Client.Reads (c : Client) (command : String) (own : Option Duration) (lines : List Incoming)
    (text : List Char) : Prop :=
  ∀ rest, let (exchange, _, c') :=
      Client.request { c with inbox := { c.inbox with queue := lines ++ rest } } command own
    exchange.result = .ok (some (String.ofList text)) ∧ exchange.diagnostics = [] ∧
      c'.inbox.queue = rest

section Reads

variable {c : Client} {pipe : Pipe} {command : String} (own : Option Duration)

/-- A terminal unit with a text is read. -/
theorem Client.reads_terminal {lines : List Incoming} {text : List Char}
    (hpipe : c.pipe = some pipe) (hsent : (pipe.sendLine command).ok = true)
    (h : Terminal lines (.ok (some (String.ofList text)))) : c.Reads command own lines text := by
  intro rest
  let s : Segment := ⟨[], lines, _, List.forall_mem_nil _, h⟩
  have hready : Client.Ready { c with inbox := { c.inbox with queue := lines ++ rest } } c.label
      [command] (s.lines ++ rest) := ⟨rfl, ⟨pipe, hpipe, hsent, trivial⟩, rfl⟩
  obtain ⟨hresult, hremarks, hafter⟩ := Client.request_segment hready own
  exact ⟨hresult, hremarks, hafter.queue_eq⟩

/-- The text of a stream is read: its lines, and what stands on the lines of the marks. -/
theorem Client.reads_stream (hpipe : c.pipe = some pipe) (hsent : (pipe.sendLine command).ok = true)
    (hfirst : streamEnd ∉ first) (hblank : ∀ ch ∈ first.getLast?, Text.isBlank ch = false)
    (hmiddle : ∀ line ∈ middle, Verbatim line) (hlast : streamEnd ∉ last) (more : List Char) :
    c.Reads command own (streamLines first middle last more)
      (Text.join ['\n'] (markLine first ++ middle ++ markLine last)) :=
  reads_terminal own hpipe hsent (terminal_streamLines hfirst hblank hmiddle hlast more)

/-- **A stream arrives as it was sent**: over several lines, on one line, and with the marks on lines
of their own. -/
theorem streams_verbatim (hpipe : c.pipe = some pipe) (hsent : (pipe.sendLine command).ok = true) :
    (∀ first middle last more, streamEnd ∉ first →
      (∀ ch ∈ first.getLast?, Text.isBlank ch = false) → (∀ line ∈ middle, Verbatim line) →
      streamEnd ∉ last →
      c.Reads command own (streamLines first middle last more)
        (Text.join ['\n'] (markLine first ++ middle ++ markLine last))) ∧
    (∀ body more, streamEnd ∉ body →
      c.Reads command own [openingLine (body ++ streamEnd :: more)] body) ∧
    (∀ text, streamEnd ∉ text →
      (∀ line ∈ Text.splitAt (· == '\n') text, line.getLast? ≠ some '\r') →
      c.Reads command own (streamLines [] (Text.splitAt (· == '\n') text) [] []) text) := by
  refine ⟨fun _ _ _ more hfirst hblank hmiddle hlast => ?_, fun body more hbody => ?_,
    fun text htext hreturn => ?_⟩
  · exact Client.reads_stream own hpipe hsent hfirst hblank hmiddle hlast more
  · exact Client.reads_terminal own hpipe hsent (terminal_oneLine hbody more)
  · have hmiddle : ∀ line ∈ Text.splitAt (· == '\n') text, Verbatim line := fun line hline =>
      ⟨fun hmem => htext (Text.mem_splitAt hline _ hmem).1, hreturn line hline⟩
    have hnil : streamEnd ∉ ([] : List Char) := List.not_mem_nil
    have hreads := Client.reads_stream own hpipe hsent hnil nofun hmiddle hnil []
    -- nothing stands on the lines of the marks
    have hrows : markLine [] ++ Text.splitAt (· == '\n') text ++ markLine [] =
        Text.splitAt (· == '\n') text := List.append_nil _
    rwa [hrows, Text.join_splitAt] at hreads

end Reads

/-- A text that begins and ends with a blank line, and lines in it that look like replies. -/
theorem streams_verbatim_board :
    let c : Client :=
      { label := "engine", pipe := some { fault := "" }, inbox := { ended := true } }
    let text := "\n . X .\n=\n? no\n"
    streamEnd ∉ text.toList ∧
      c.Reads "board" none
        [.line "=\x02", .line "", .line " . X .", .line "=", .line "? no", .line "", .line "\x03"]
        text.toList := by
  refine ⟨by decide, ?_⟩
  exact (streams_verbatim none rfl (Pipe.isWhole_sendLine rfl "board").1).2.2
    "\n . X .\n=\n? no\n".toList (by decide) (by decide)

end EngineDuel.Wire
