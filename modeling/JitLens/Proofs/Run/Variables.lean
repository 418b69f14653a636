import JitLens.Proofs.Compiler.Layers
import JitLens.Proofs.Run.Calls
/-!
# Deriving the variables

The ways in which deriving the variables of a job ends.  The library pack is looked for first; then
the job may be refused, and only then the file of a flow graph is made, if there is one.
-/

namespace JitLens

open Files JitLens.Action

namespace Compiler.Variables

/-- What is found of the library pack, which a published project does without. -/
def packOn (host : Host) (s : Settings) (b : Bench) : Except PatternError Found :=
  if s.reload = .publish then .ok {} else findPack b.files b.here host s none

theorem run_packFor (host : Host) (s : Settings) (b : Bench) :
    (packFor host s).run.run b =
      ((packOn host s b).mapError fun e => .fault (.pattern e), b) := by
  unfold packFor packOn
  by_cases hpublish : s.reload = .publish
  · rw [if_pos hpublish, if_pos hpublish]
    rfl
  · rw [if_neg hpublish, if_neg hpublish, run_bind_ok (run_get b)]
    cases findPack b.files b.here host s none with
    | ok pack => rfl
    | error e => rfl

theorem run_packFor_ok {host : Host} {s : Settings} {b : Bench} {pack : Found}
    (hpack : packOn host s b = .ok pack) : (packFor host s).run.run b = (.ok pack, b) := by
  rw [run_packFor, hpack]
  rfl

theorem packOn_build {host : Host} {s : Settings} {b : Bench} (hbuild : s.reload = .build) :
    packOn host s b = findPack b.files b.here host s none := by
  rw [packOn, hbuild]
  exact if_neg (by decide)

end Compiler.Variables

namespace Execution

open Compiler.Variables

variable {host : Host} {j : Job} {b b' : Bench}

/-- The message of a job that is refused. -/
def refusedMessage (s : Settings) (pack : Compiler.Found) : String :=
  errorOr "Unable to derive environment variables" (refusal s pack)

/-- The ways in which deriving the variables of a job ends, with a result and a bench. -/
inductive VarsEnding (host : Host) (j : Job) (b : Bench) :
    Except Failure Compiler.Variables × Bench → Prop where
  | unmatched {e : PatternError} (hpack : packOn host j.settings b = .error e) :
    VarsEnding host j b (.error (.fault (.pattern e)), b)
  | refused {pack : Compiler.Found} (hpack : packOn host j.settings b = .ok pack)
      (hrefused : Refused j.settings j.target.method pack) :
    VarsEnding host j b (.error (.step .configuration (refusedMessage j.settings pack)), b)
  | plain {pack : Compiler.Found} (hpack : packOn host j.settings b = .ok pack)
      (hrefused : ¬ Refused j.settings j.target.method pack)
      (hgraph : j.settings.flowGraph = false) :
    VarsEnding host j b (.ok (all j.settings j.target.filter pack none), b)
  | drawing {pack : Compiler.Found} {t : Tree} (hpack : packOn host j.settings b = .ok pack)
      (hrefused : ¬ Refused j.settings j.target.method pack)
      (hgraph : j.settings.flowGraph = true)
      (hcreate : b.files.create b.here (b.nextFile "") [] = .ok t) :
    VarsEnding host j b (.ok (all j.settings j.target.filter pack (some (b.nextFile ""))),
      { b with files := t, drawn := b.nextNumber "" })
  | unwritable {pack : Compiler.Found} {e : FileError}
      (hpack : packOn host j.settings b = .ok pack)
      (hrefused : ¬ Refused j.settings j.target.method pack)
      (hgraph : j.settings.flowGraph = true)
      (hcreate : b.files.create b.here (b.nextFile "") [] = .error e) :
    VarsEnding host j b (.error (.fault (.file e)), { b with drawn := b.nextNumber "" })

/-- What becomes of a job once its library pack was looked for. -/
theorem run_vars_of_prepare {pack : Compiler.Found} {r : Except (Option String) Compiler.Variables}
    (hpack : packOn host j.settings b = .ok pack)
    (hprepare : (Compiler.Variables.prepare j.settings j.target.method j.target.filter pack).run.run
      b = (.ok r, b')) :
    (vars host j).run.run b =
      match r with
      | .ok vars => (.ok vars, b')
      | .error reason =>
        (.error (.step .configuration
          (errorOr "Unable to derive environment variables" reason)), b') := by
  have hrun : (forRun host j.settings j.target.method j.target.filter).run.run b = (.ok r, b') := by
    unfold forRun
    rw [run_bind_ok (run_packFor_ok hpack), hprepare]
  unfold vars
  rw [run_bind_ok hrun]
  cases r with
  | ok vars => rfl
  | error reason => rfl

theorem run_vars_of_refused {pack : Compiler.Found}
    (hpack : packOn host j.settings b = .ok pack)
    (hrefused : Refused j.settings j.target.method pack) :
    (vars host j).run.run b =
      (.error (.step .configuration (refusedMessage j.settings pack)), b) :=
  run_vars_of_prepare hpack (run_prepare_of_refused hrefused)

theorem vars_ending (host : Host) (j : Job) (b : Bench) :
    VarsEnding host j b ((vars host j).run.run b) := by
  cases hpack : packOn host j.settings b with
  | error e =>
      have hunmatched : (vars host j).run.run b = (.error (.fault (.pattern e)), b) := by
        unfold vars forRun
        apply run_bind_error
        apply run_bind_error
        rw [run_packFor, hpack]
        rfl
      rw [hunmatched]
      exact .unmatched hpack
  | ok pack =>
      by_cases hrefused : Refused j.settings j.target.method pack
      · rw [run_vars_of_refused hpack hrefused]
        exact .refused hpack hrefused
      · cases hgraph : j.settings.flowGraph with
        | false =>
            rw [run_vars_of_prepare hpack (run_prepare_plain hrefused hgraph)]
            exact .plain hpack hrefused hgraph
        | true =>
            cases hcreate : b.files.create b.here (b.nextFile "") [] with
            | ok t =>
                rw [run_vars_of_prepare hpack (run_prepare_graph hrefused hgraph hcreate)]
                exact .drawing hpack hrefused hgraph hcreate
            | error e =>
                have hfailed : (vars host j).run.run b =
                    (.error (.fault (.file e)), { b with drawn := b.nextNumber "" }) := by
                  unfold vars forRun
                  apply run_bind_error
                  rw [run_bind_ok (run_packFor_ok hpack)]
                  exact run_prepare_unwritable hrefused hgraph hcreate
                rw [hfailed]
                exact .unwritable hpack hrefused hgraph hcreate

/-- The file of a flow graph is the next temporary file, and the variables name it. -/
theorem dumpGraphFile_of_vars {vars : Compiler.Variables} (hgraph : j.settings.flowGraph = true)
    (hvars : (Execution.vars host j).run.run b = (.ok vars, b')) :
    Table.get? vars dumpGraphFile = some (b.nextFile "").text := by
  have hending := vars_ending host j b
  rw [hvars] at hending
  cases hending with
  | plain _ _ hplain =>
      rw [hgraph] at hplain
      cases hplain
  | drawing _ _ _ _ => exact get?_all.2 (.graph rfl .file)

end Execution
end JitLens
