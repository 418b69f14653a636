import JitLens.Proofs.Files.Frame
import JitLens.Proofs.Run.Endings
import JitLens.Proofs.Run.Variables
import JitLens.Proofs.Loader.Install
import JitLens.Proofs.Temporary
/-!
# Files that a run leaves alone

A run writes to its output directory, to the directory in the cache that its key names, and to its
own temporary files.  A file that is nowhere there keeps its bytes, if the tools leave it alone too.
-/

namespace JitLens

open Files JitLens.Action

/-- The tools leave the bytes at a location alone. -/
def Tools.Leaves (tools : Tools) (l : Location) : Prop :=
  ∀ calls i t, (tools calls i t).files.bytesAt l = t.bytesAt l

/-- A file that a run makes in the directory for temporary files. -/
def graphFile (temporary : Path) (n : Nat) (ending : String) : Path :=
  temporary.child ("jitscope-fg-" ++ toString n ++ ending)

/-- The files that runs make in the directory for temporary files, and the drawing that the compiler
leaves beside such a file. -/
inductive OwnFile (temporary : Path) : Path → Prop where
  | made (n : Nat) (ending : String) (hending : ending = "" ∨ ending = ".png") :
    OwnFile temporary (graphFile temporary n ending)
  | drawing (n : Nat) :
    OwnFile temporary (FlowGraph.dotFile (graphFile temporary n "").text)

theorem isName_graphFile (n : Nat) {ending : String} (hslash : '/' ∉ ending.toList)
    (hnull : '\x00' ∉ ending.toList) : IsName ("jitscope-fg-" ++ toString n ++ ending) :=
  isName_numberedName (by decide) ⟨hslash, hnull⟩ n

theorem nextFile_eq_graphFile {ending : String} (hending : ending = "" ∨ ending = ".png")
    (b : Bench) : b.nextFile ending = graphFile b.temporary (b.nextNumber ending) ending := by
  refine ((isName_graphFile _ ?_ ?_).child_eq _).symm
  · rcases hending with rfl | rfl <;> decide
  · rcases hending with rfl | rfl <;> decide

theorem OwnFile.nextFile {ending : String} (hending : ending = "" ∨ ending = ".png") (b : Bench) :
    OwnFile b.temporary (b.nextFile ending) := by
  rw [nextFile_eq_graphFile hending]
  exact .made _ ending hending

/-- A location that the run of a job has nothing to do with. -/
structure Job.Apart (tools : Tools) (j : Job) (here : Location) (temporary : Path)
    (l : Location) : Prop where
  output : ¬ j.target.folder.spelled here <+: l
  /-- No directory in the cache, whatever version the build program says it has. -/
  cache : ∀ calls t result,
    (tools calls (Loader.versionCall j.settings.dotnet) t).outcome = .ok result →
    ¬ ((Loader.defaultRoot temporary).child (Loader.Key.name
      ⟨j.settings.version, j.framework, Text.trimmed result.output⟩)).spelled here <+: l
  own : ∀ p, OwnFile temporary p → p.spelled here ≠ l

/-- On a bench with the given directories they stay the same, and so do the bytes at a location. -/
def SameAt (here : Location) (temporary : Path) (l : Location) (b b' : Bench) : Prop :=
  b.here = here ∧ b.temporary = temporary →
    b'.here = here ∧ b'.temporary = temporary ∧ b'.files.bytesAt l = b.files.bytesAt l

section

variable {here l : Location} {temporary : Path} {b b' : Bench}

theorem quiet_sameAt : Quiet (SameAt here temporary l) where
  refl _ hb := ⟨hb.1, hb.2, rfl⟩
  trans hab hbc hb := by
    obtain ⟨hhere, htemporary, hbytes⟩ := hab hb
    obtain ⟨hhere', htemporary', hbytes'⟩ := hbc ⟨hhere, htemporary⟩
    exact ⟨hhere', htemporary', hbytes'.trans hbytes⟩
  drawn _ _ hb := ⟨hb.1, hb.2, rfl⟩
  statuses _ _ hb := ⟨hb.1, hb.2, rfl⟩
  warnings _ _ hb := ⟨hb.1, hb.2, rfl⟩

namespace SameAt

theorem files {t : Tree} (ht : b.here = here → t.bytesAt l = b.files.bytesAt l) :
    SameAt here temporary l b { b with files := t } :=
  fun hb => ⟨hb.1, hb.2, ht hb.1⟩

theorem called {tools : Tools} (hleaves : tools.Leaves l) (i : Invocation) :
    SameAt here temporary l b (called tools i b) :=
  fun hb => ⟨hb.1, hb.2, hleaves _ _ _⟩

/-- Only benches with the given directories count. -/
theorem stays_of {α : Type} {x : Action α}
    (hx : b.here = here → b.temporary = temporary → Stays (SameAt here temporary l) x b) :
    Stays (SameAt here temporary l) x b :=
  fun hb => hx hb.1 hb.2 hb

end SameAt

/-! ## The loader -/

namespace Loader

theorem sameAt_writeSource {waiting : String} {folder : Path} {fill : List Char → List Char}
    (hname : IsName (sourceName waiting)) (hfolder : ¬ folder.spelled here <+: l) :
    Stays (SameAt here temporary l) (writeSource waiting folder fill) b := by
  have hne : (folder.child (sourceName waiting)).spelled here ≠ l := by
    rw [Path.spelled_child hname]
    rintro rfl
    exact hfolder (List.prefix_append _ _)
  apply Stays.get_bind
  split
  · exact Stays.pure quiet_sameAt _
  · split
    · exact Stays.ofExcept quiet_sameAt _ _
    · apply Stays.bind quiet_sameAt
      · apply Stays.change_of quiet_sameAt
        intro t hwrite
        apply SameAt.files
        rintro rfl
        exact Tree.bytesAt_of_write hwrite hne
      · intro _ b₁ _
        exact Stays.pure quiet_sameAt _

theorem sameAt_copyFile {source target : Path} (hne : target.spelled here ≠ l) :
    Stays (SameAt here temporary l) (copyFile source target) b := by
  apply Stays.get_bind
  split
  · next t hcopy =>
    apply SameAt.files
    rintro rfl
    exact Tree.bytesAt_of_copyFile hcopy hne
  · exact Stays.throw quiet_sameAt _
  · exact Stays.throw quiet_sameAt _

theorem sameAt_copyTo {source dest : Path} (hdest : ¬ dest.spelled here <+: l) :
    Stays (SameAt here temporary l) (copyTo source dest) b := by
  apply Stays.forM quiet_sameAt
  intro name hname b₁
  apply sameAt_copyFile
  rw [Path.spelled_child (isName_binaries name hname)]
  rintro rfl
  exact hdest (List.prefix_append _ _)

theorem sameAt_arrange {root dest : Path} {key : Key}
    (hfolder : ¬ (root.child key.name).spelled here <+: l)
    (hdest : ¬ dest.spelled here <+: l) :
    Stays (SameAt here temporary l) (arrange root key dest) b := by
  apply Stays.get_bind
  split
  · apply Stays.bind quiet_sameAt (sameAt_copyTo hdest)
    intro _ b₁ _
    exact Stays.pure quiet_sameAt _
  · apply Stays.bind quiet_sameAt
    · apply Stays.makeDirs_of
      · intro made hmake
        exact SameAt.files fun _ => Tree.bytesAt_of_makeDirs hmake
      · exact SameAt.files fun _ => Tree.bytesAt_partDirs _ _ _
    intro _ b₁ _
    apply Stays.bind quiet_sameAt (Stays.checkCancelled quiet_sameAt)
    intro _ b₂ _
    apply Stays.bind quiet_sameAt (Stays.report quiet_sameAt _)
    intro _ b₃ _
    apply Stays.bind quiet_sameAt
      (sameAt_writeSource (isName_sourceName_template _ (by simp)) hfolder)
    intro _ b₄ _
    apply Stays.bind quiet_sameAt
      (sameAt_writeSource (isName_sourceName_template _ (by simp)) hfolder)
    intro _ b₅ _
    apply Stays.bind quiet_sameAt (Stays.checkCancelled quiet_sameAt)
    intro _ b₆ _
    exact Stays.pure quiet_sameAt _

theorem sameAt_collect {root dest : Path} {key : Key} {result : ToolResult}
    (hdest : ¬ dest.spelled here <+: l) :
    Stays (SameAt here temporary l) (collect root key dest result) b := by
  apply Stays.get_bind
  split
  · exact Stays.throw quiet_sameAt _
  · apply Stays.bind quiet_sameAt (Stays.checkCancelled quiet_sameAt)
    intro _ b₁ _
    apply Stays.bind quiet_sameAt (sameAt_copyTo hdest)
    intro _ b₂ _
    exact Stays.pure quiet_sameAt _

theorem sameAt_sdkVersion {tools : Tools} (hleaves : tools.Leaves l) (dotnet : String) :
    Stays (SameAt here temporary l) (sdkVersion tools dotnet) b := by
  apply Stays.bind quiet_sameAt
  · apply Stays.tryCatch quiet_sameAt
      (Stays.call_of quiet_sameAt fun _ => SameAt.called hleaves _)
    intro e b₁ _
    split
    · exact Stays.throw quiet_sameAt _
    · exact Stays.throw quiet_sameAt _
  · intro result b₁ _
    exact Stays.pure quiet_sameAt _

theorem sameAt_install {tools : Tools} {dotnet framework version : String} {root dest : Path}
    (hleaves : tools.Leaves l) (hdest : ¬ dest.spelled here <+: l)
    (hcache : ∀ calls t result, (tools calls (versionCall dotnet) t).outcome = .ok result →
      ¬ (root.child (Key.name ⟨version, framework, Text.trimmed result.output⟩)).spelled here
        <+: l) :
    Stays (SameAt here temporary l) (install tools dotnet root dest framework version) b := by
  apply Stays.bind quiet_sameAt (stays_begin quiet_sameAt _)
  intro origin? b₁ _
  split
  · exact Stays.pure quiet_sameAt _
  · apply Stays.bind quiet_sameAt (sameAt_sdkVersion hleaves dotnet)
    intro sdk b₂ hversion
    obtain ⟨result, hcall, rfl⟩ := sdkVersion_eq_ok hversion
    have hkey := hcache _ _ _ (call_eq_ok hcall).1
    apply Stays.bind quiet_sameAt (sameAt_arrange hkey hdest)
    intro origin? b₃ _
    split
    · exact Stays.pure quiet_sameAt _
    · apply Stays.bind quiet_sameAt
        (Stays.call_of quiet_sameAt fun _ => SameAt.called hleaves _)
      intro result b₄ _
      exact sameAt_collect hdest

end Loader

/-! ## Flow graphs -/

theorem sameAt_temporaryFile {ending : String} (hending : ending = "" ∨ ending = ".png")
    (hown : ∀ p, OwnFile temporary p → p.spelled here ≠ l) :
    Stays (SameAt here temporary l) (Action.temporaryFile ending) b := by
  apply SameAt.stays_of
  rintro rfl rfl
  apply Stays.temporaryFile_of quiet_sameAt
  intro t hcreate _
  exact ⟨rfl, rfl, Tree.bytesAt_of_create hcreate (hown _ (OwnFile.nextFile hending b))⟩

theorem Action.temporaryFile_eq_ok {ending : String} {p : Path}
    (hmade : (Action.temporaryFile ending).run.run b = (.ok p, b')) : p = b.nextFile ending := by
  cases hcreate : b.files.create b.here (b.nextFile ending) [] with
  | error e =>
      rw [run_temporaryFile_error hcreate] at hmade
      cases hmade
  | ok t =>
      rw [run_temporaryFile_ok hcreate] at hmade
      cases hmade
      rfl

namespace FlowGraph

theorem sameAt_keepLast {file : Path} (hne : file.spelled here ≠ l) :
    Stays (SameAt here temporary l) (keepLast file) b := by
  apply Stays.bind quiet_sameAt (Stays.look quiet_sameAt _ _)
  intro r b₁ _
  apply Stays.bind quiet_sameAt (Stays.ofExcept quiet_sameAt _ r)
  intro content b₂ _
  dsimp only
  split
  · apply Stays.bind quiet_sameAt
    · apply Stays.change_of quiet_sameAt
      intro t hwrite
      apply SameAt.files
      rintro rfl
      exact Tree.bytesAt_of_write hwrite hne
    intro _ b₃ _
    exact Stays.pure quiet_sameAt _
  · exact Stays.pure quiet_sameAt _

theorem sameAt_render {tools : Tools} {name program : String} (hleaves : tools.Leaves l)
    (hname : (dotFile name).spelled here ≠ l)
    (hown : ∀ p, OwnFile temporary p → p.spelled here ≠ l) :
    Stays (SameAt here temporary l) (render tools name program) b := by
  apply Stays.get_bind
  split
  · exact Stays.pure quiet_sameAt _
  · split
    · exact Stays.pure quiet_sameAt _
    · apply Stays.bind quiet_sameAt (sameAt_keepLast hname)
      intro _ b₁ _
      apply Stays.bind quiet_sameAt (Stays.checkCancelled quiet_sameAt)
      intro _ b₂ _
      -- The picture that may be removed in the end is the one that is made here.
      apply SameAt.stays_of
      rintro rfl rfl
      apply Stays.bind quiet_sameAt (sameAt_temporaryFile (.inr rfl) hown)
      intro picture b₃ hmade
      have hpicture : picture.spelled b₂.here ≠ l := by
        rw [temporaryFile_eq_ok hmade]
        exact hown _ (OwnFile.nextFile (.inr rfl) b₂)
      apply Stays.bind quiet_sameAt
        (Stays.call_of quiet_sameAt fun _ => SameAt.called hleaves _)
      intro result b₄ _
      apply Stays.bind quiet_sameAt (Stays.checkCancelled quiet_sameAt)
      intro _ b₅ _
      apply Stays.get_bind
      split
      · apply Stays.bind quiet_sameAt
        · apply Stays.change_of quiet_sameAt
          intro t hdiscard
          apply SameAt.files
          intro hhere
          rw [hhere] at hdiscard
          exact Tree.bytesAt_of_discard hdiscard hpicture
        intro _ b₆ _
        exact Stays.pure quiet_sameAt _
      · exact Stays.pure quiet_sameAt _

end FlowGraph

/-! ## The two steps -/

section

variable {tools : Tools} {host : Host} {j : Job}

theorem Build.sameAt_finish {compiler : Path} {result : ToolResult}
    (houtput : ¬ j.target.folder.spelled here <+: l) :
    Stays (SameAt here temporary l) (finish host j compiler result) b := by
  have hlay : ∀ b, Stays (SameAt here temporary l) (layRuntime host j compiler) b := by
    intro b
    apply Stays.bind quiet_sameAt (Stays.report quiet_sameAt _)
    intro _ b₁ _
    apply Stays.get_bind
    dsimp only
    split
    · exact Stays.throw quiet_sameAt _
    · apply Stays.ofExcept_bind quiet_sameAt
      intro _ _
      apply Stays.bind quiet_sameAt
      · apply SameAt.files
        rintro rfl
        exact Tree.bytesAt_overlay b₁.files houtput
      intro _ b₂ _
      split
      · exact Stays.pure quiet_sameAt _
      · exact Stays.throw quiet_sameAt _
  have hlast : ∀ b, Stays (SameAt here temporary l) (do
      if j.settings.reload = .publish then
        layRuntime host j compiler
      Action.checkCancelled) b := by
    intro b
    split
    · apply Stays.bind quiet_sameAt (hlay b)
      intro _ b₁ _
      exact Stays.checkCancelled quiet_sameAt
    · exact Stays.checkCancelled quiet_sameAt
  apply Stays.bind quiet_sameAt (Stays.checkCancelled quiet_sameAt)
  intro _ b₁ _
  dsimp only
  split
  · apply Stays.bind quiet_sameAt (Stays.throw quiet_sameAt _)
    intro _ b₂ _
    exact hlast b₂
  · exact hlast b₁

theorem Build.sameAt_attempt {o : Order} (hleaves : tools.Leaves l)
    (houtput : ¬ o.job.target.folder.spelled here <+: l) :
    Stays (SameAt here temporary l) (attempt tools host o.job) b := by
  have hgate : Stays (SameAt here temporary l) (gate host o.job) b := by
    unfold Stays
    rw [bench_gate]
    exact quiet_sameAt.refl b
  rw [attempt_eq]
  apply Stays.bind quiet_sameAt hgate
  intro g b₁ _
  apply Stays.bind quiet_sameAt (Stays.report quiet_sameAt _)
  intro _ b₂ _
  apply Stays.bind quiet_sameAt (Stays.call_of quiet_sameAt fun _ => SameAt.called hleaves _)
  intro result b₃ _
  exact sameAt_finish houtput

namespace Execution

theorem sameAt_load (hleaves : tools.Leaves l) (happart : j.Apart tools here temporary l) :
    Stays (SameAt here temporary l) (load tools j) b := by
  unfold load
  split
  · apply SameAt.stays_of
    rintro rfl rfl
    apply Stays.get_bind
    apply Stays.bind quiet_sameAt
      (Loader.sameAt_install hleaves happart.output happart.cache)
    intro _ b₁ _
    exact Stays.pure quiet_sameAt _
  · exact Stays.pure quiet_sameAt _

theorem sameAt_vars (hown : ∀ p, OwnFile temporary p → p.spelled here ≠ l) :
    Stays (SameAt here temporary l) (vars host j) b := by
  apply SameAt.stays_of
  rintro rfl rfl
  unfold Stays
  have hending := vars_ending host j b
  generalize (vars host j).run.run b = r at *
  cases hending with
  | unmatched _ => exact quiet_sameAt.refl b
  | refused _ _ => exact quiet_sameAt.refl b
  | plain _ _ _ => exact quiet_sameAt.refl b
  | drawing _ _ _ hcreate =>
      intro _
      exact ⟨rfl, rfl, Tree.bytesAt_of_create hcreate (hown _ (OwnFile.nextFile (.inl rfl) b))⟩
  | unwritable _ _ _ _ => exact quiet_sameAt.drawn b _

theorem sameAt_prepare (hleaves : tools.Leaves l) (happart : j.Apart tools here temporary l) :
    Stays (SameAt here temporary l) (prepare tools host j) b := by
  apply Stays.bind quiet_sameAt (sameAt_load hleaves happart)
  intro _ b₁ _
  apply Stays.bind quiet_sameAt (sameAt_vars happart.own)
  intro vars b₂ _
  apply Stays.bind quiet_sameAt (stays_invocation quiet_sameAt _ _ _)
  intro call b₃ _
  exact Stays.pure quiet_sameAt _

/-- The variables of a flow graph name a temporary file of the run. -/
theorem dumpGraphFile_of_prepare {vars : Compiler.Variables} {call : Invocation}
    (hgraph : j.settings.flowGraph = true)
    (hprepare : (prepare tools host j).run.run b = (.ok (vars, call), b')) :
    ∃ n, Table.get? vars Compiler.Variables.dumpGraphFile =
      some (graphFile b.temporary n "").text := by
  unfold prepare at hprepare
  obtain ⟨_, b₁, hload, hloaded⟩ := exists_of_run_bind_ok hprepare
  obtain ⟨vars', b₂, hvars, hcalling⟩ := exists_of_run_bind_ok hloaded
  obtain ⟨call', b₃, _, hlast⟩ := exists_of_run_bind_ok hcalling
  cases hlast
  have htemporary : b₁.temporary = b.temporary := by
    have hstays := stays_load (alongCalls_temporary tools) j (b := b)
    unfold Stays at hstays
    rwa [hload] at hstays
  refine ⟨b₁.nextNumber "", ?_⟩
  rw [dumpGraphFile_of_vars hgraph hvars, ← htemporary, nextFile_eq_graphFile (.inl rfl)]

theorem sameAt_drawn {s : Settings} {vars : Compiler.Variables} (hleaves : tools.Leaves l)
    (hown : ∀ p, OwnFile temporary p → p.spelled here ≠ l)
    (hfile : s.flowGraph = true → ∃ n, Table.get? vars Compiler.Variables.dumpGraphFile =
      some (graphFile temporary n "").text) :
    Stays (SameAt here temporary l) (drawn tools s vars) b := by
  unfold drawn
  split
  · next hwants =>
    obtain ⟨n, hn⟩ := hfile (Bool.and_eq_true_iff.1 hwants).1
    have hname : (FlowGraph.dotFile ((Table.get? vars
        Compiler.Variables.dumpGraphFile).getD "")).spelled here ≠ l := by
      rw [hn]
      exact hown _ (.drawing n)
    apply Stays.bind quiet_sameAt (FlowGraph.sameAt_render hleaves hname hown)
    intro r b₁ _
    split
    · exact Stays.pure quiet_sameAt _
    · exact Stays.throw quiet_sameAt _
  · exact Stays.pure quiet_sameAt _

theorem sameAt_attempt {prettifier : Option Prettifier} (hleaves : tools.Leaves l)
    (happart : j.Apart tools here temporary l) :
    Stays (SameAt here temporary l) (attempt tools host prettifier j) b := by
  rw [attempt_eq]
  apply SameAt.stays_of
  rintro rfl rfl
  apply Stays.bind quiet_sameAt (sameAt_prepare hleaves happart)
  rintro ⟨vars, call⟩ b₁ hprepare
  apply Stays.bind quiet_sameAt (Stays.call_of quiet_sameAt fun _ => SameAt.called hleaves _)
  intro result b₂ _
  apply Stays.bind quiet_sameAt (Stays.checkCancelled quiet_sameAt)
  intro _ b₃ _
  have hdrawn := sameAt_drawn (b := b₃) hleaves happart.own
    fun hgraph => dumpGraphFile_of_prepare hgraph hprepare
  apply Stays.bind quiet_sameAt hdrawn
  intro picture b₄ _
  exact Stays.pure quiet_sameAt _

end Execution

/-! ## Runs -/

/-- A run keeps the bytes at a location that it has nothing to do with. -/
theorem Order.sameAt_run {o : Order} {prettifier : Option Prettifier} {clock : Clock}
    (hleaves : tools.Leaves l) (happart : o.job.Apart tools here temporary l) :
    SameAt here temporary l b ((run tools host prettifier clock o).run b).2 :=
  related_run_of quiet_sameAt (Build.sameAt_attempt hleaves happart.output)
    fun _ _ => Execution.sameAt_attempt hleaves happart

end
end
end JitLens
