import JitLens.Proofs.Files.Overlay
import JitLens.Proofs.Run.Lookups
/-!
# A published project under the local runtime

The directory of the compiler is laid over the output directory once the project was published: what
is in it is there from then on, at any depth, and everything else is as the build program left it.
If the build program has something to say, nothing is copied.
-/

namespace JitLens.Build

open Files JitLens.Action

variable {tools : Tools} {host : Host} {j : Job} {b b' : Bench}

/-- The files as the build program leaves them. -/
def builtFiles (tools : Tools) (host : Host) (j : Job) (b : Bench) : Tree :=
  (tools b.calls (invocation host j) b.files).files

/-- What a published project has become. -/
structure Overlaid (tools : Tools) (host : Host) (j : Job) (b b' : Bench) (compiler : Path)
    (origin goal : Location) : Prop where
  found : (Compiler.findCompiler b.files b.here host j.settings none).require = .ok compiler
  compiler : (builtFiles tools host j b).locate b.here compiler = .ok origin
  compilerThere : (builtFiles tools host j b).look origin = some .dir
  output : (builtFiles tools host j b).locate b.here (Target.outputFolder j.project j.output) =
    .ok goal
  outputThere : (builtFiles tools host j b).look goal = some .dir
  lies : (builtFiles tools host j b).CanLieOver origin goal →
    (builtFiles tools host j b).LiesOver b'.files origin goal

theorem compiler_of_gate {g : Gate} (hpublish : j.settings.reload = .publish)
    (hgate : (gate host j).run.run b = (.ok g, b')) :
    b' = b ∧ b.Uncancelled ∧
      (Compiler.findCompiler b.files b.here host j.settings none).require = .ok g.compiler := by
  obtain ⟨huncancelled, compiler, hrequire, hrules⟩ := passCompiler_eq_ok hgate
  obtain ⟨-, hpack⟩ := passRules_eq_ok hrules
  rw [passPack, if_neg (by simp [hpublish])] at hpack
  cases hpack
  exact ⟨rfl, huncancelled, hrequire⟩

theorem openDir_eq_ok {t : Tree} {here : Location} {p : Path} (hopen : t.openDir here p = .ok ()) :
    ∃ l, t.locate here p = .ok l ∧ t.look l = some .dir := by
  unfold Tree.openDir at hopen
  cases hlocate : t.locate here p with
  | error e => simp [hlocate] at hopen
  | ok l =>
      cases hlook : t.look l with
      | none => simp [hlocate, hlook] at hopen
      | some i =>
          cases i with
          | file content executable => simp [hlocate, hlook] at hopen
          | dir => exact ⟨l, rfl, hlook⟩

theorem layRuntime_eq_ok {compiler : Path}
    (hlay : (layRuntime host j compiler).run.run b = (.ok (), b')) :
    b.files.isDir b.here (Target.outputFolder j.project j.output) = true ∧
      b.files.openDir b.here compiler = .ok () ∧
      b.files.overlay b.here compiler (Target.outputFolder j.project j.output) = ([], b'.files) := by
  unfold layRuntime at hlay
  obtain ⟨_, b₁, hreport, hlay⟩ := exists_of_run_bind_ok hlay
  cases hreport
  rw [run_bind_ok (run_get _)] at hlay
  cases hdir : b.files.isDir b.here (Target.outputFolder j.project j.output) with
  | false =>
      simp only [hdir] at hlay
      cases hlay
  | true =>
      simp only [hdir, Bool.not_true, Bool.false_eq_true, if_false] at hlay
      cases hopen : b.files.openDir b.here compiler with
      | error e =>
          rw [hopen] at hlay
          cases hlay
      | ok u =>
          rw [hopen, run_bind_ok (x := Action.ofFiles _) rfl] at hlay
          refine ⟨rfl, rfl, ?_⟩
          generalize b.files.overlay b.here compiler (Target.outputFolder j.project j.output) = r at *
          obtain ⟨errors, files⟩ := r
          dsimp only at hlay
          rw [run_bind_ok (run_set _ _)] at hlay
          cases errors with
          | nil =>
              cases hlay
              rfl
          | cons e errors => cases hlay

theorem overlaid_of_finish {compiler : Path} {result : ToolResult}
    (hpublish : j.settings.reload = .publish)
    (hfound : (Compiler.findCompiler b.files b.here host j.settings none).require = .ok compiler)
    (hfinish : (finish host j compiler result).run.run
      (called tools (invocation host j) (announced host j b)) = (.ok (), b')) :
    ∃ origin goal, Overlaid tools host j b b' compiler origin goal := by
  unfold finish at hfinish
  obtain ⟨_, b₁, hcheck, hfinish⟩ := exists_of_run_bind_ok hfinish
  obtain ⟨rfl, -⟩ := checkCancelled_eq_ok hcheck
  cases hcomplaint : complaint? result with
  | some complaint =>
      rw [hcomplaint] at hfinish
      cases hfinish
  | none =>
      rw [hcomplaint] at hfinish
      dsimp only at hfinish
      rw [if_pos hpublish] at hfinish
      obtain ⟨_, b₂, hlay, hlast⟩ := exists_of_run_bind_ok hfinish
      obtain ⟨rfl, -⟩ := checkCancelled_eq_ok hlast
      obtain ⟨hdir, hopen, hover⟩ := layRuntime_eq_ok hlay
      obtain ⟨goal, hgoal, hgoalThere⟩ := Tree.isDir_iff.1 hdir
      obtain ⟨origin, horigin, horiginThere⟩ := openDir_eq_ok hopen
      refine ⟨origin, goal, hfound, horigin, horiginThere, hgoal, hgoalThere, fun hcan => ?_⟩
      obtain ⟨t, ht, hlies⟩ := Tree.exists_overlay horigin hgoal horiginThere hgoalThere hcan
      rw [hover, Prod.mk.injEq] at ht
      rw [ht.2]
      exact hlies

theorem overlaid_of_attempt (hpublish : j.settings.reload = .publish)
    (hattempt : (attempt tools host j).run.run b = (.ok (), b')) :
    ∃ compiler origin goal, Overlaid tools host j b b' compiler origin goal := by
  rw [attempt_eq] at hattempt
  obtain ⟨g, b₁, hgate, -⟩ := exists_of_run_bind_ok hattempt
  obtain ⟨rfl, -, hfound⟩ := compiler_of_gate hpublish hgate
  rw [← attempt_eq, run_attempt_of_gate hgate] at hattempt
  obtain ⟨result, b₂, hcall, hfinish⟩ := exists_of_run_bind_ok hattempt
  obtain ⟨-, rfl⟩ := call_eq_ok hcall
  exact ⟨g.compiler, overlaid_of_finish hpublish hfound hfinish⟩

/-- Nothing is copied if the build program has something to say. -/
theorem files_of_complaint {compiler : Path} {result : ToolResult} {m : String}
    (hcomplaint : complaint? result = some m) :
    ((finish host j compiler result).run.run b).2.files = b.files := by
  unfold finish
  rcases b.cancelled_or_uncancelled with hcancelled | huncancelled
  · obtain ⟨message, hstop⟩ := run_checkCancelled_of_cancelled hcancelled
    rw [run_bind_error hstop]
  · rw [run_bind_ok (run_checkCancelled huncancelled), hcomplaint]
    rfl

theorem files_of_attempt {result : ToolResult} {m : String}
    (houtcome : (tools b.calls (invocation host j) b.files).outcome = .ok result)
    (hcomplaint : complaint? result = some m)
    (hcalls : ((attempt tools host j).run.run b).2.calls ≠ b.calls) :
    ((attempt tools host j).run.run b).2.files = builtFiles tools host j b := by
  rcases hgate : (gate host j).run.run b with ⟨f | g, b₁⟩
  · have hbench := bench_gate host j b
    rw [hgate] at hbench
    rw [attempt_eq, run_bind_error hgate] at hcalls
    exact absurd (congrArg Bench.calls hbench) hcalls
  · have hbench := bench_gate host j b
    rw [hgate] at hbench
    obtain rfl : b₁ = b := hbench
    obtain ⟨huncancelled, -⟩ := passCompiler_eq_ok hgate
    have hcall : (Action.call tools (invocation host j)).run.run (announced host j b₁) =
        (.ok result, called tools (invocation host j) (announced host j b₁)) :=
      run_call_ok (uncancelled_announced host j huncancelled).not_refuses houtcome
    rw [run_attempt_of_gate hgate, run_bind_ok hcall, files_of_complaint hcomplaint]
    rfl

/-- A project that is published lies under the local runtime afterwards; nothing is copied if the
build program has something to say. -/
theorem run_overlays (hpublish : j.settings.reload = .publish) :
    (((run tools host j).run b).1 = none →
      ∃ compiler origin goal,
        Overlaid tools host j b ((run tools host j).run b).2 compiler origin goal) ∧
    (∀ result m, (tools b.calls (invocation host j) b.files).outcome = .ok result →
      complaint? result = some m → ((run tools host j).run b).2.calls ≠ b.calls →
      ((run tools host j).run b).2.files = builtFiles tools host j b) := by
  rcases hattempt : (attempt tools host j).run.run b with ⟨f | ⟨⟩, b₁⟩
  · obtain ⟨ws, hrun⟩ := run_error hattempt
    rw [hrun]
    refine ⟨nofun, fun result m houtcome hcomplaint hcalls => ?_⟩
    have hfiles := files_of_attempt houtcome hcomplaint (by rwa [hattempt])
    rwa [hattempt] at hfiles
  · rw [run_ok hattempt]
    refine ⟨fun _ => overlaid_of_attempt hpublish hattempt, ?_⟩
    intro result m houtcome hcomplaint hcalls
    have hfiles := files_of_attempt houtcome hcomplaint (by rwa [hattempt])
    rwa [hattempt] at hfiles

/-- A compiler, with a library in a directory of its own. -/
def sampleCompiler : List (String × Entry) :=
  [("clrjit.dll", .file [1] false), ("lib", .dir [("core.dll", .file [2] true)])]

/-- A published project, with a compiler of its own. -/
def sampleOutput : List (String × Entry) :=
  [("App.dll", .file [3] false), ("clrjit.dll", .file [4] false)]

def sampleCheckout : Bench where
  files := ⟨[
    ("rt", .dir [("artifacts", .dir [("bin", .dir [
      ("coreclr", .dir [("linux.x64.Checked", .dir sampleCompiler)])])])]),
    ("App", .dir [("out", .dir sampleOutput)])]⟩
  here := []
  temporary := ⟨.root, ["tmp"]⟩

def samplePublish : Job where
  symbol := { qualifiedClass := "App.Program", className := "Program", method := some "Main" }
  settings := { runtimeRoot := "rt", arch := some "x64", reload := .publish }
  project := "App/App.csproj"
  framework := "net8.0"
  output := "out"

/-- In the published project there are two files. -/
theorem of_itemAt_output {r : Location} {i : Item}
    (hitem : Entry.itemAt (some (.dir sampleOutput)) r = some i) :
    r = [] ∨ (r = ["App.dll"] ∨ r = ["clrjit.dll"]) ∧ i ≠ .dir := by
  match r with
  | [] => exact .inl rfl
  | [n] =>
    simp only [Entry.itemAt_dir, sampleOutput, Entry.child?_cons] at hitem
    split_ifs at hitem with happ hjit
    · subst happ
      exact .inr ⟨.inl rfl, by rintro rfl; cases hitem⟩
    · subst hjit
      exact .inr ⟨.inr rfl, by rintro rfl; cases hitem⟩
    · cases hitem
  | n :: m :: r =>
    simp only [Entry.itemAt_dir, sampleOutput, Entry.child?_cons] at hitem
    split_ifs at hitem
    · cases hitem
    · cases hitem
    · cases hitem

theorem canLieOver_sample : sampleCheckout.files.CanLieOver
    ["rt", "artifacts", "bin", "coreclr", "linux.x64.Checked"] ["App", "out"] where
  notInside := by decide
  notAround := by decide
  fileNotDir r content executable hfile hdir := by
    rw [Tree.look_append] at hfile hdir
    rcases of_itemAt_output hdir with rfl | ⟨-, hne⟩
    · cases hfile
    · exact hne rfl
  dirNotFile r content executable hdir hfile := by
    rw [Tree.look_append] at hfile hdir
    rcases of_itemAt_output hfile with rfl | ⟨rfl | rfl, -⟩
    · cases hfile
    · cases hdir
    · cases hdir

/-- The new compiler takes the place of the old one, its library comes to it, and the project stays. -/
theorem run_overlays_sample :
    let tools : Tools := fun _ _ t => { files := t, outcome := .ok {} }
    let b' := ((run tools {} samplePublish).run sampleCheckout).2
    samplePublish.settings.reload = .publish ∧
      b'.files.look ["App", "out", "clrjit.dll"] = some (.file [1] false) ∧
      b'.files.look ["App", "out", "lib", "core.dll"] = some (.file [2] true) ∧
      b'.files.look ["App", "out", "App.dll"] = some (.file [3] false) := by
  intro tools b'
  have hnone : ((run tools {} samplePublish).run sampleCheckout).1 = none := by decide +kernel
  have hfound : (Compiler.findCompiler sampleCheckout.files [] {} samplePublish.settings none).require =
      .ok ⟨.relative, ["rt", "artifacts", "bin", "coreclr", "linux.x64.Checked"]⟩ := by rfl
  have hcompiler : sampleCheckout.files.locate []
      ⟨.relative, ["rt", "artifacts", "bin", "coreclr", "linux.x64.Checked"]⟩ =
      .ok ["rt", "artifacts", "bin", "coreclr", "linux.x64.Checked"] := by decide +kernel
  have houtput : sampleCheckout.files.locate [] (Target.outputFolder "App/App.csproj" "out") =
      .ok ["App", "out"] := by decide +kernel
  obtain ⟨compiler, origin, goal, hover⟩ := (run_overlays rfl).1 hnone
  obtain rfl := Except.ok.inj (hfound.symm.trans hover.found)
  obtain rfl := Except.ok.inj (hcompiler.symm.trans hover.compiler)
  obtain rfl := Except.ok.inj (houtput.symm.trans hover.output)
  have hlies := (hover.lies canLieOver_sample).inside
  exact ⟨rfl, hlies ["clrjit.dll"], hlies ["lib", "core.dll"], hlies ["App.dll"]⟩

end JitLens.Build
