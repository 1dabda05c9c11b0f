import EngineDuel.Host.Arena
import EngineDuel.Host.Race
import EngineDuel.Proofs.Report.FinalLine
import EngineDuel.Proofs.Text.Lines

/-!
# Ratings of a match of a search

The output of a match is a text of lines with the final line as the last. Whatever the lines before
it say, a match that ends well brings the ratings of its final line, and one that does not end well
brings none (`race_readsBack`).
-/

namespace EngineDuel

namespace Tuning

variable {lines : List String} {line : String} {found : Report.FinalRatings}

/-- A last line that tells ratings counts. -/
theorem lastRatings?_concat (h : Report.readFinalLine? line = some found) :
    lastRatings? (lines ++ [line]) = some found := by
  rw [lastRatings?, List.foldl_append, List.foldl_cons, List.foldl_nil, h, Option.some_or]

/-- The output that an encoded text is: all of its lines. -/
theorem RaceOutput.ofBytes_encode (text : String) :
    RaceOutput.ofBytes (Text.encode text) =
      ⟨(Text.charLines text.toList).map String.ofList, true⟩ := by
  obtain ⟨hlines, hlength⟩ := Text.readableLines_encode text
  rw [RaceOutput.ofBytes, hlines, hlength, List.length_map, beq_self_eq_true]

theorem RaceOutput.outcome_of_last {o : RaceOutput} (hwhole : o.whole = true)
    (hlines : o.lines = lines ++ [line]) (h : Report.readFinalLine? line = some found) :
    o.outcome none = .ok ⟨found.aElo, found.bElo⟩ := by
  have hratings : lastRatings? o.lines = some found := by rw [hlines, lastRatings?_concat h]
  unfold RaceOutput.outcome
  rw [hwhole, hratings]
  rfl

theorem RaceOutput.outcome_of_fault (o : RaceOutput) (fault : String) :
    ∃ failure, o.outcome (some fault) = .error failure := by
  unfold RaceOutput.outcome
  split_ifs
  · exact ⟨_, rfl⟩
  · exact ⟨_, rfl⟩

end Tuning

namespace Host

open Number

/-- The lines of a text whose last line is a final line with a moment before it. -/
theorem charLines_stamped (lines : List String) (now : Moment) (s : Standings) {r : Ratings}
    (ha : isFinite r.a = true) (hb : isFinite r.b = true) :
    ∃ before, (Text.charLines (String.join (lines.map (· ++ "\n")) ++
        Arena.stamped now (Report.finalLine s r)).toList).map String.ofList =
      before ++ [now.stamp ++ " " ++ Report.finalLine s r] := by
  have hnot {c : Char} (hdigit : c.isDigit = false) (hstamp : c ∉ Report.stampMarks)
      (hline : c ∉ Report.lineMarks) :=
    Report.not_mem_stamped now s ha hb hdigit hstamp hline
  have hfeed := hnot (c := '\n') (by decide) (by decide) (by decide)
  have hreturn := hnot (c := '\r') (by decide) (by decide) (by decide)
  have htext : (String.join (lines.map (· ++ "\n")) ++
      Arena.stamped now (Report.finalLine s r)).toList =
        (lines.map String.toList).flatMap (· ++ ['\n']) ++
          ((now.stamp ++ " " ++ Report.finalLine s r).toList ++ ['\n']) := by
    rw [Arena.stamped, String.toList_append, String.toList_append, String.toList_join,
      List.flatMap_map, List.flatMap_map]
    simp only [String.toList_append]
    rfl
  obtain ⟨before, hbefore⟩ := Text.charLines_lines (lines.map String.toList) hfeed
    fun h => hreturn (List.mem_of_getLast? h)
  rw [htext, hbefore, List.map_append, List.map_singleton, String.ofList_toList]
  exact ⟨_, rfl⟩

/-- **A match that ends well brings the ratings of its final line exactly, whatever lines stand
before it; a match that does not end well brings none, whatever it printed.** -/
theorem race_readsBack (launch : Launcher) (cwd : Place) (settings : Tuning.RaceSettings)
    (site : Site) (baseline target : Tuning.Contestant) {running : Program}
    (h : launch
      { path := settings.arenaPath, args := (settings.arguments baseline target).map .text, cwd }
      site.files = .ok running) :
    ((running.finish site.files []).ending.isSuccess = true →
      ∀ (lines : List String) (now : Moment) (standings : Standings) (ratings : Ratings),
        isFinite ratings.a = true → isFinite ratings.b = true →
        (running.finish site.files []).out =
          Text.encode (String.join (lines.map (· ++ "\n")) ++
            Arena.stamped now (Report.finalLine standings ratings)) →
        (race launch cwd settings site baseline target).result = .ok ⟨ratings.a, ratings.b⟩) ∧
      ((running.finish site.files []).ending.isSuccess = false →
        ∃ failure, (race launch cwd settings site baseline target).result = .error failure) := by
  have hresult : (race launch cwd settings site baseline target).result =
      (Tuning.RaceOutput.ofBytes (running.finish site.files []).out).outcome
        (if (running.finish site.files []).ending.isSuccess then none
          else some (running.finish site.files []).ending.message) := by
    rw [race]
    dsimp only
    rw [h]
  rw [hresult]
  constructor
  · intro hsuccess lines now standings ratings ha hb hout
    obtain ⟨before, hlines⟩ := charLines_stamped lines now standings ha hb
    rw [if_pos hsuccess, hout, Tuning.RaceOutput.ofBytes_encode, hlines]
    exact Tuning.RaceOutput.outcome_of_last rfl rfl
      (Report.readFinalLine?_stamped now standings ha hb)
  · intro hfailed
    rw [if_neg (by rw [hfailed]; exact Bool.false_ne_true)]
    exact Tuning.RaceOutput.outcome_of_fault _ _

/-- A program that prints a line which only looks like a final line, and then a final line. -/
def deceiving (ending : Ending) : Program :=
  .emit .out (Text.encode (String.join (["Arena Finished: a_elo=1, b_elo=2"].map (· ++ "\n")) ++
    Arena.stamped {} (Report.finalLine {} { a := 1016.5, b := -0.0 }))) fun _ => .done ending

/-- A match that this program plays. -/
def deceivingRace (ending : Ending) : Except Failure Tuning.RaceOutcome :=
  (race (fun _ _ => .ok (deceiving ending)) [] ⟨"arena", "", 1, {}, 32.0, []⟩ { files := {} }
    ⟨0.0, "a", 1000.0⟩ ⟨1.0, "b", 1000.0⟩).result

/-- The same output counts if the program ends well, to the sign of zero, and not if it fails. -/
theorem race_readsBack_deceiving :
    deceivingRace (.code 0) = .ok ⟨1016.5, -0.0⟩ ∧
      ∃ failure, deceivingRace (.code 1) = .error failure := by
  obtain ⟨hsuccess, -⟩ := race_readsBack (fun _ _ => .ok (deceiving (.code 0))) []
    ⟨"arena", "", 1, {}, 32.0, []⟩ { files := {} } ⟨0.0, "a", 1000.0⟩ ⟨1.0, "b", 1000.0⟩ rfl
  obtain ⟨-, hfailure⟩ := race_readsBack (fun _ _ => .ok (deceiving (.code 1))) []
    ⟨"arena", "", 1, {}, 32.0, []⟩ { files := {} } ⟨0.0, "a", 1000.0⟩ ⟨1.0, "b", 1000.0⟩ rfl
  exact ⟨hsuccess rfl ["Arena Finished: a_elo=1, b_elo=2"] {} {} { a := 1016.5, b := -0.0 }
    (by decide +kernel) (by decide +kernel) (List.append_nil _), hfailure rfl⟩

end Host

end EngineDuel
