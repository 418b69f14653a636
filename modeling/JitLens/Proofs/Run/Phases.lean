import JitLens.Proofs.Compiler.Crossgen
import JitLens.Proofs.Run.Containment
import JitLens.Proofs.Run.Course
/-!
# Phases of a dump

A dump is read line by line, and carriage returns before its line feeds make no difference.  So the
phases of a text are those of its parts, and a run that shows errors behind the output of its
instrumented call lists the phases of both.
-/

namespace JitLens

open Files

/-! ## Lines -/

namespace Text

variable {c sep : Char} {pre cs : List Char}

/-- What holds of texts without a character, and of texts with such a text and the character in
front, holds of all texts. -/
theorem pieces_induction {P : List Char → Prop} (sep : Char) (last : ∀ l, sep ∉ l → P l)
    (piece : ∀ l cs, sep ∉ l → P cs → P (l ++ sep :: cs)) (cs : List Char) : P cs := by
  have hall : ∀ ls : List (List Char), ls ≠ [] → (∀ l ∈ ls, sep ∉ l) → P (joinWith sep ls) := by
    intro ls hne hls
    induction ls with
    | nil => exact absurd rfl hne
    | cons l ls ih =>
        have hl := hls l List.mem_cons_self
        by_cases hlast : ls = []
        · subst hlast
          exact last l hl
        · rw [joinWith_cons hlast]
          exact piece l _ hl (ih hlast fun m hm => hls m (List.mem_cons_of_mem _ hm))
  rw [← joinWith_splitOn sep cs]
  exact hall _ (splitOn_ne_nil sep cs) fun l hl => not_mem_of_mem_splitOn hl

theorem stripLeading_concat (hc : c ∉ pre) :
    stripLeading pre (cs ++ [c]) = (stripLeading pre cs).map (· ++ [c]) := by
  induction pre generalizing cs with
  | nil => rfl
  | cons p pre ih =>
      rw [List.mem_cons, not_or] at hc
      cases cs with
      | nil => simp [stripLeading, Ne.symm hc.1]
      | cons d cs =>
          rw [List.cons_append, stripLeading, stripLeading]
          split
          · exact ih hc.2
          · rfl

theorem replaceAll_singleton (old : Char) (new cs : List Char) :
    replaceAll [old] new cs = cs.flatMap fun c => if c = old then new else [c] := by
  unfold replaceAll
  induction cs with
  | nil => rfl
  | cons c cs ih =>
      have hstarts : startsWith [old] (c :: cs) = true ↔ c = old := by
        rw [startsWith_iff_isPrefix]
        simp [eq_comm]
      rw [replaceFrom, List.flatMap_cons]
      by_cases hc : c = old
      · rw [if_pos (hstarts.2 hc), if_pos hc]
        exact congrArg (new ++ ·) ih
      · rw [if_neg fun h => hc (hstarts.1 h), if_neg hc]
        exact congrArg (c :: ·) ih

end Text

namespace Output

/-! ## Phases of a text -/

theorem phase?_concat_return (line : List Char) : phase? (line ++ ['\r']) = phase? line := by
  have hdrop (cs : List Char) : dropReturns (cs ++ ['\r']) = dropReturns cs := by
    simp [dropReturns]
  rw [phase?, phase?, Text.stripLeading_concat (by decide), Option.map_map]
  exact congrArg (Option.map · _) (funext fun cs => congrArg String.ofList (hdrop cs))

theorem phases_append (a b : String) : phases (a ++ "\n" ++ b) = phases a ++ phases b := by
  have hnewline : (a ++ "\n" ++ b).toList = a.toList ++ '\n' :: b.toList := by simp
  rw [phases, hnewline, Text.splitOn_append_cons, List.filterMap_append, phases, phases]

theorem phases_of_line {line : String} (hline : '\n' ∉ line.toList) :
    phases line = (phase? line.toList).toList := by
  rw [phases, Text.splitOn_of_not_mem hline]
  cases hphase : phase? line.toList <;> simp [hphase]

/-- A text in two parts, the first of which is a line. -/
theorem ofList_piece (l cs : List Char) :
    String.ofList (l ++ '\n' :: cs) = String.ofList l ++ "\n" ++ String.ofList cs := by
  apply String.toList_inj.1
  simp

/-- A carriage return at the end belongs to the last line, which tells the same phase without it. -/
theorem phases_concat_return (a : String) : phases (a ++ "\r") = phases a := by
  obtain ⟨cs, rfl⟩ : ∃ cs, a = String.ofList cs := ⟨a.toList, by simp⟩
  induction cs using Text.pieces_induction '\n' with
  | last l hl =>
      have hreturn : (String.ofList l ++ "\r").toList = l ++ ['\r'] := by simp
      rw [phases_of_line (by simpa using hl), phases_of_line (by simpa using hl), hreturn,
        phase?_concat_return, String.toList_ofList]
  | piece l cs hl ih =>
      rw [ofList_piece, String.append_assoc, phases_append, ih, phases_append]

theorem phases_append_return (a b : String) :
    phases (a ++ "\r\n" ++ b) = phases a ++ phases b := by
  have hsplit : a ++ "\r\n" ++ b = a ++ "\r" ++ "\n" ++ b := by
    apply String.toList_inj.1
    simp
  rw [hsplit, phases_append, phases_concat_return]

/-- The text with a carriage return before each line feed. -/
def withReturns (a : String) : String :=
  String.ofList (Text.replaceAll ['\n'] ['\r', '\n'] a.toList)

theorem phases_withReturns (a : String) : phases (withReturns a) = phases a := by
  obtain ⟨cs, rfl⟩ : ∃ cs, a = String.ofList cs := ⟨a.toList, by simp⟩
  have hline (l : List Char) (hl : '\n' ∉ l) : withReturns (String.ofList l) = String.ofList l := by
    rw [withReturns, String.toList_ofList, Text.replaceAll_of_not_infix]
    exact fun hfound => hl (hfound.subset (by simp))
  induction cs using Text.pieces_induction '\n' with
  | last l hl => rw [hline l hl]
  | piece l cs hl ih =>
      have hparts : withReturns (String.ofList (l ++ '\n' :: cs)) =
          String.ofList l ++ "\r\n" ++ withReturns (String.ofList cs) := by
        rw [← hline l hl]
        apply String.toList_inj.1
        simp [withReturns, Text.replaceAll_singleton]
      rw [hparts, phases_append_return, ih, ofList_piece, phases_append]

/-! ## Dumps -/

theorem dropReturns_of_getLast? {cs : List Char} (hend : cs.getLast? ≠ some '\r') :
    dropReturns cs = cs := by
  rw [← List.head?_reverse] at hend
  rw [dropReturns]
  cases hreverse : cs.reverse with
  | nil => simpa using hreverse.symm
  | cons c ds =>
      have hc : c ≠ '\r' := by simpa [hreverse] using hend
      rw [List.dropWhile_cons_of_neg (by simpa using hc), ← hreverse, List.reverse_reverse]

/-- A line of a dump: one that starts a phase, or another one. -/
inductive DumpLine where
  | starting (phase : String) (hline : '\n' ∉ phase.toList)
      (hend : phase.toList.getLast? ≠ some '\r')
  | other (line : String) (hline : '\n' ∉ line.toList) (hother : ¬ phaseMark <+: line.toList)

namespace DumpLine

def text : DumpLine → String
  | starting phase _ _ => String.ofList phaseMark ++ phase
  | other line _ _ => line

/-- The phase that the line starts. -/
def phase? : DumpLine → Option String
  | starting phase _ _ => some phase
  | other _ _ _ => none

theorem newline_notMem_text (l : DumpLine) : '\n' ∉ l.text.toList := by
  have hmark : '\n' ∉ phaseMark := by decide
  cases l with
  | starting phase hline _ => simp [text, hmark, hline]
  | other line hline _ => exact hline

theorem phase?_text (l : DumpLine) : Output.phase? l.text.toList = l.phase? := by
  cases l with
  | starting phase hline hend =>
      have htext : (starting phase hline hend).text.toList = phaseMark ++ phase.toList := by
        simp [text]
      rw [Output.phase?, htext, Text.stripLeading_append, Option.map_some,
        dropReturns_of_getLast? hend, String.ofList_toList]
      rfl
  | other line _ hother =>
      have hnone : Text.stripLeading phaseMark line.toList = none := by
        rw [← Option.not_isSome_iff_eq_none]
        exact fun hstarts => hother (Text.startsWith_iff_isPrefix.1 hstarts)
      rw [Output.phase?, text, hnone]
      rfl

end DumpLine

/-- The line feed, alone or behind a carriage return. -/
def newlines : List String := ["\n", "\r\n"]

theorem phases_append_newline {newline : String} (hnewline : newline ∈ newlines) (a b : String) :
    phases (a ++ newline ++ b) = phases a ++ phases b := by
  simp only [newlines, List.mem_cons, List.not_mem_nil, or_false] at hnewline
  rcases hnewline with rfl | rfl
  · exact phases_append a b
  · exact phases_append_return a b

theorem phases_text (l : DumpLine) : phases l.text = l.phase?.toList := by
  rw [phases_of_line l.newline_notMem_text, l.phase?_text]

theorem phases_intercalate {newline : String} (hnewline : newline ∈ newlines)
    (ls : List DumpLine) :
    phases (newline.intercalate (ls.map DumpLine.text)) = ls.filterMap DumpLine.phase? := by
  induction ls with
  | nil => rfl
  | cons l ls ih =>
      have hfirst : (l :: ls).filterMap DumpLine.phase? =
          l.phase?.toList ++ ls.filterMap DumpLine.phase? := by
        cases hphase : l.phase? <;> simp [hphase]
      rw [hfirst]
      cases ls with
      | nil => simpa using phases_text l
      | cons m ls =>
          rw [List.map_cons, List.map_cons, String.intercalate_cons_cons,
            phases_append_newline hnewline, phases_text]
          exact congrArg _ ih

end Output

/-! ## Runs -/

/-- Phases are listed in order and without the errors' heading in between. -/
theorem Execution.phases_shown {s : Settings} (hcapture : s.capture = .jitDump)
    (prettifier : Option Prettifier) (result : ToolResult) :
    Output.phases (shown s prettifier result) =
      Output.phases result.output ++ Output.phases result.errors := by
  have hplain : Output.shown s prettifier result.output = result.output := by
    unfold Output.shown
    rw [hcapture]
  have hempty : Output.phases "" = [] := rfl
  have hheading : Output.phases "ERROR:" = [] := by decide
  unfold shown
  by_cases herrors : result.errors = ""
  · rw [if_pos herrors, herrors, hempty, List.append_nil, hplain]
  · have hparts : result.output ++ "\nERROR:\n" ++ result.errors =
        result.output ++ "\n" ++ ("ERROR:" ++ "\n" ++ result.errors) := by
      apply String.toList_inj.1
      simp
    rw [if_neg herrors, hparts, Output.phases_append, Output.phases_append, hheading,
      List.nil_append]

namespace Order

variable {tools : Tools} {host : Host} {prettifier : Option Prettifier} {clock : Clock}
  {o : Order} {b : Bench}

/-- The instrumented call of a run is reached, and leaves a result. -/
def Prints (tools : Tools) (host : Host) (o : Order) (b : Bench) (result : ToolResult) : Prop :=
  ∃ vars call, (o.ready tools host b).1 = .ok (vars, call) ∧
    (tools (o.ready tools host b).2.calls call (o.ready tools host b).2.files).outcome = .ok result

theorem phases_of_success
    (hsuccess : ((run tools host prettifier clock o).run b).1.success = true)
    (hcapture : o.settings.capture = .jitDump) :
    ∃ result, o.Prints tools host b result ∧
      ((run tools host prettifier clock o).run b).1.phases =
        Output.phases result.output ++ Output.phases result.errors := by
  have hending := run_ending tools host prettifier clock o b
  generalize (run tools host prettifier clock o).run b = r at *
  cases hending with
  | refused _ => cases hsuccess
  | unbuilt _ _ => cases hsuccess
  | unexecuted _ _ _ => cases hsuccess
  | @done e b₁ b' _ hbuild hattempt =>
      obtain ⟨vars, call, ready, result, hprepare, houtcome, -, houtput⟩ :=
        (Execution.attempt_eq_ok hattempt).made
      have hready : o.ready tools host b = (.ok (vars, call), ready) := by
        rw [Order.ready, built, hbuild, hprepare]
      have hphases : (Outcome.executed clock o e).phases = Output.phases e.output :=
        if_pos hcapture
      refine ⟨result, ⟨vars, call, by rw [hready], by rw [hready]; exact houtcome⟩, ?_⟩
      rw [hphases, houtput]
      exact Execution.phases_shown hcapture prettifier result

end Order

namespace Output

/-- How the phases of a text come from its lines, and those of a run from its texts. -/
structure LineByLine : Prop where
  append : ∀ a b : String, phases (a ++ "\n" ++ b) = phases a ++ phases b
  returns : ∀ a : String, phases (withReturns a) = phases a
  /-- Of any lines those are listed that start a phase, each as often as it comes. -/
  lines : ∀ newline ∈ newlines, ∀ ls : List DumpLine,
    phases (newline.intercalate (ls.map DumpLine.text)) = ls.filterMap DumpLine.phase?
  /-- A run that is a success lists the phases of the output of its instrumented call and then
  those of the errors. -/
  run : ∀ (tools : Tools) (host : Host) (prettifier : Option Prettifier) (clock : Clock)
    (o : Order) (b : Bench), ((o.run tools host prettifier clock).run b).1.success = true →
    o.settings.capture = .jitDump → ∃ result, o.Prints tools host b result ∧
      ((o.run tools host prettifier clock).run b).1.phases =
        phases result.output ++ phases result.errors

theorem phases_lineByLine : LineByLine where
  append := phases_append
  returns := phases_withReturns
  lines _ hnewline := phases_intercalate hnewline
  run _ _ _ _ _ _ hsuccess hcapture := Order.phases_of_success hsuccess hcapture

/-- Tools of which the first builds, and the second dumps and fails in between. -/
def dumpingTools : Tools := fun calls _ files => {
  files := files
  outcome := .ok (if calls.isEmpty then {} else {
    output := "*************** Starting PHASE Morph\r\nIL\rcode"
    errors := "Assertion failed\n*************** Starting PHASE Morph\n" }) }

def dumpingOrder : Order :=
  { Order.drawingOrder with settings := { Order.drawingOrder.settings with flowGraph := false } }

theorem phases_lineByLine_errors :
    let r := (dumpingOrder.run dumpingTools {} none ⟨.zero false, .zero false⟩).run
      Order.drawingBench
    r.1.success = true ∧ r.1.phases = ["Morph", "Morph"] ∧
      ∃ result, dumpingOrder.Prints dumpingTools {} Order.drawingBench result ∧
        r.1.phases = phases result.output ++ phases result.errors := by
  intro r
  have hsuccess : r.1.success = true := by decide +kernel
  exact ⟨hsuccess, by decide +kernel,
    phases_lineByLine.run _ _ _ _ _ _ hsuccess (by decide)⟩

end Output
end JitLens
