import JitLens.Proofs.Loader.AllOrNothing
import JitLens.Proofs.Run.Containment
/-!
# The version of the build program

Whatever the call for the version leaves on its output is taken for the version, be it blank, and
nobody looks at the exit code.  Just a call that does not end normally ends the installation.  After
any other one a loader is taken from the cache or built there, in a directory that all build
programs share which tell nothing.
-/

namespace JitLens

open Files JitLens.Action

theorem Text.trimmed_of_blank {s : String} (hblank : Text.blankString s = true) :
    Text.trimmed s = "" := by
  rw [trimmed, trim, dropWhile_eq_nil_of_allBlank hblank]
  rfl

namespace Loader

variable {tools : Tools} {dotnet framework version : String} {root dest : Path} {b b' : Bench}
  {f : Failure} {result : ToolResult}

/-! ## The call for the version -/

/-- What the call for the version comes to. -/
def answer (tools : Tools) (dotnet : String) (b : Bench) : Except Failure ToolResult :=
  (tools b.calls (versionCall dotnet) b.files).outcome

/-- The bench after the call for the version. -/
def asked (tools : Tools) (dotnet : String) (b : Bench) : Bench :=
  called tools (versionCall dotnet) (asking b)

/-- The key of a loader for the version that a result is taken for. -/
def keyOf (framework version : String) (result : ToolResult) : Key :=
  ⟨version, framework, Text.trimmed result.output⟩

theorem calls_asked (tools : Tools) (dotnet : String) (b : Bench) :
    (asked tools dotnet b).calls = b.calls ++ [versionCall dotnet] := rfl

/-! ## What follows -/

theorem run_install_of_error (hmissing : Missing b dest) (hopen : ¬ b.Refuses)
    (hanswer : answer tools dotnet (asking b) = .error f) :
    (install tools dotnet root dest framework version).run.run b =
      (.error (untold f), asked tools dotnet b) :=
  run_install_of_untold hmissing (run_sdkVersion_of_error hopen hanswer)

theorem run_install_of_result (hmissing : Missing b dest) (hopen : ¬ b.Refuses)
    (hanswer : answer tools dotnet (asking b) = .ok result) :
    (install tools dotnet root dest framework version).run.run b =
      (deliver tools dotnet root dest (keyOf framework version result)).run.run
        (asked tools dotnet b) := by
  have hversioned : Versioned tools dotnet dest b (Text.trimmed result.output)
      (asked tools dotnet b) :=
    ⟨_, run_begin_of_missing hmissing, run_sdkVersion_of_result hopen hanswer⟩
  exact hversioned.run_install root framework version

theorem delivery_of_result (hmissing : Missing b dest) (hopen : ¬ b.Refuses)
    (hanswer : answer tools dotnet (asking b) = .ok result) :
    Delivery tools dotnet root dest (keyOf framework version result) (asked tools dotnet b)
      ((install tools dotnet root dest framework version).run.run b).1
      ((install tools dotnet root dest framework version).run.run b).2 := by
  rcases hrun : (install tools dotnet root dest framework version).run.run b with ⟨r, b'⟩
  rw [run_install_of_result hmissing hopen hanswer] at hrun
  exact delivery_of_run hrun

/-- A loader in the cache is copied without another call. -/
theorem Delivery.of_isIn {key : Key} {r : Except Failure Origin}
    (hin : isIn (key.out root) b.files b.here = true)
    (hdelivery : Delivery tools dotnet root dest key b r b') :
    b'.calls = b.calls ∧
      ((∃ e, r = .error (.fault e)) ∨
        r = .ok .cached ∧ (copyTo (key.out root) dest).run.run b = (.ok (), b')) := by
  cases hdelivery with
  | unarranged harrange =>
      cases harrange with
      | untaken _ hcopy => exact ⟨calls_of_copyTo hcopy, .inl ⟨_, rfl⟩⟩
      | unmade hout _ | stopped hout _ _ _ => simp [hin] at hout
  | cached harrange =>
      cases harrange with
      | taken _ hcopy => exact ⟨calls_of_copyTo hcopy, .inr ⟨rfl, hcopy⟩⟩
  | failed harrange _ | collected harrange _ _ =>
      have hbuild := harrange.toBuild
      simp [ToBuild, hin] at hbuild

/-- An installation takes the output of the call for the version for the version. -/
structure TakesOutput (tools : Tools) (dotnet : String) (root dest : Path)
    (framework version : String) (b : Bench) : Prop where
  raised : ∀ f, answer tools dotnet (asking b) = .error f → f.isCancelled = false →
    (install tools dotnet root dest framework version).run.run b =
      (.error (.step .loaderBuild (noVersion f)), asked tools dotnet b)
  stopped : ∀ f, answer tools dotnet (asking b) = .error f → f.isCancelled = true →
    (install tools dotnet root dest framework version).run.run b =
      (.error f, asked tools dotnet b)
  /-- The exit code of the result plays no part in what follows. -/
  taken : ∀ result, answer tools dotnet (asking b) = .ok result →
    (install tools dotnet root dest framework version).run.run b =
      (deliver tools dotnet root dest (keyOf framework version result)).run.run
        (asked tools dotnet b)
  cached : ∀ result, answer tools dotnet (asking b) = .ok result →
    isIn ((keyOf framework version result).out root) (asked tools dotnet b).files b.here = true →
    let r := (install tools dotnet root dest framework version).run.run b
    r.2.calls = b.calls ++ [versionCall dotnet] ∧
      ((∃ e, r.1 = .error (.fault e)) ∨
        r.1 = .ok .cached ∧
          (copyTo ((keyOf framework version result).out root) dest).run.run
            (asked tools dotnet b) = (.ok (), r.2))
  /-- The loader is built, unless somebody has cancelled by then, if its directory can be made. -/
  built : ∀ result made, answer tools dotnet (asking b) = .ok result →
    isIn ((keyOf framework version result).out root) (asked tools dotnet b).files b.here = false →
    (asked tools dotnet b).Uncancelled →
    (asked tools dotnet b).files.makeDirs b.here
      (root.child (keyOf framework version result).name) = .ok made →
    ((install tools dotnet root dest framework version).run.run b).2.calls = b.calls ++
      [versionCall dotnet, buildCall dotnet root (keyOf framework version result)]
  /-- All blank outputs lead to one directory. -/
  blank : ∀ result : ToolResult, Text.blankString result.output = true →
    (keyOf framework version result).name = version ++ "_" ++ framework ++ "_"

theorem install_takesOutput (hmissing : Missing b dest) (hopen : ¬ b.Refuses) :
    TakesOutput tools dotnet root dest framework version b where
  raised _ hanswer hf := by
    rw [run_install_of_error hmissing hopen hanswer, untold, if_neg (by simp [hf])]
  stopped _ hanswer hf := by
    rw [run_install_of_error hmissing hopen hanswer, untold, if_pos hf]
  taken _ hanswer := run_install_of_result hmissing hopen hanswer
  cached _ hanswer hin := (delivery_of_result hmissing hopen hanswer).of_isIn hin
  built _ made hanswer hout hcancel hmake := by
    rcases (delivery_of_result hmissing hopen hanswer).calls ⟨made, hmake⟩ with
      ⟨-, hcalls⟩ | ⟨hnot, -⟩
    · rw [hcalls, calls_asked, List.append_assoc]
      rfl
    · exact absurd ⟨hout, hcancel⟩ hnot
  blank result hblank := by
    simp [Key.name, keyOf, Text.trimmed_of_blank hblank]

/-- A build program that does not tell its version, which its exit code shows. -/
def silentTools : Tools := fun calls i t =>
  match i.directory with
  | none => { files := t, outcome := .ok { output := "\n", exitCode := 1 } }
  | some _ => sampleTools calls i t

/-- The key of a loader for a version that was not told. -/
def silentKey : Key := ⟨"1", "net8.0", ""⟩

/-- The loader is built in the directory `1_net8.0_` of the cache and copied from there. -/
theorem install_takesOutput_silent :
    Missing halfBench ⟨.root, ["bin"]⟩ ∧ ¬ halfBench.Refuses ∧
      TakesOutput silentTools "dotnet" sampleRoot ⟨.root, ["bin"]⟩ "net8.0" "1" halfBench ∧
      ((install silentTools "dotnet" sampleRoot ⟨.root, ["bin"]⟩ "net8.0" "1").run.run
        halfBench).1.toOption = some .built ∧
      ((install silentTools "dotnet" sampleRoot ⟨.root, ["bin"]⟩ "net8.0" "1").run.run
        halfBench).2.calls =
          halfBench.calls ++ [versionCall "dotnet", buildCall "dotnet" sampleRoot silentKey] := by
  have hmissing : Missing halfBench ⟨.root, ["bin"]⟩ := ⟨by decide, by decide⟩
  have hopen : ¬ halfBench.Refuses := by
    rintro ⟨-, token, htoken, -⟩
    cases htoken
  have htakes : TakesOutput silentTools "dotnet" sampleRoot ⟨.root, ["bin"]⟩ "net8.0" "1"
      halfBench := install_takesOutput hmissing hopen
  have hanswer : answer silentTools "dotnet" (asking halfBench) =
      .ok { output := "\n", exitCode := 1 } := rfl
  have hkey : keyOf "net8.0" "1" { output := "\n", exitCode := 1 } = silentKey := by decide
  have hout : isIn (silentKey.out sampleRoot) (asked silentTools "dotnet" halfBench).files
      halfBench.here = false := by decide +kernel
  have hcancel : (asked silentTools "dotnet" halfBench).Uncancelled := by
    intro token htoken
    cases htoken
  obtain ⟨made, hmake⟩ : ∃ made, (asked silentTools "dotnet" halfBench).files.makeDirs
      halfBench.here (sampleRoot.child silentKey.name) = .ok made := ⟨_, rfl⟩
  have hbuilt := htakes.built _ made hanswer
  rw [hkey] at hbuilt
  exact ⟨hmissing, hopen, htakes, by decide +kernel, hbuilt hout hcancel hmake⟩

end Loader
end JitLens
