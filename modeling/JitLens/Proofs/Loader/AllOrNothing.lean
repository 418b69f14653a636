import JitLens.Proofs.Files.Directories
import JitLens.Proofs.Loader.Endings
/-!
# All or nothing

An installation that fails in a way that it foresees leaves the destination as it was, and one that
succeeds leaves both binaries there as they are in the cache.
-/

namespace JitLens.Loader

open Files JitLens.Action

section

variable {tools : Tools} {dotnet framework version sdk : String} {root dest : Path} {key : Key}
  {b b' b₁ : Bench}

/-! ## Calls -/

theorem calls_of_copyTo {source dest : Path} {r : Except Failure Unit}
    (hrun : (copyTo source dest).run.run b = (r, b')) : b'.calls = b.calls :=
  ((stays_copyTo offRecord_sameRecord source dest).sameRecord hrun).2

theorem Arrangement.calls {r : Except Failure (Option Origin)}
    (harrange : Arrangement root dest key b r b') : b'.calls = b.calls := by
  cases harrange with
  | taken _ hcopy => exact calls_of_copyTo hcopy
  | untaken _ hcopy => exact calls_of_copyTo hcopy
  | unmade _ _ => rfl
  | stopped _ _ _ _ => rfl
  | arranged _ _ _ _ => rfl

theorem Collection.calls {result : ToolResult} {r : Except Failure Origin}
    (hcollect : Collection root dest key result b r b') : b'.calls = b.calls := by
  cases hcollect with
  | notBuilt _ => rfl
  | stopped _ _ _ => rfl
  | taken _ _ hcopy => exact calls_of_copyTo hcopy
  | untaken _ _ hcopy => exact calls_of_copyTo hcopy

/-- The loader is called for to be built if it is not in the cache and nobody has cancelled. -/
def ToBuild (root : Path) (key : Key) (b : Bench) : Prop :=
  isIn (key.out root) b.files b.here = false ∧ b.Uncancelled

theorem Arrangement.toBuild (harrange : Arrangement root dest key b (.ok none) b') :
    ToBuild root key b := by
  cases harrange with
  | arranged hout _ hcancel _ => exact ⟨hout, hcancel⟩

/-- If the directory of the key can be made, nothing else keeps a loader from being built. -/
theorem Arrangement.not_toBuild {r : Except Failure (Option Origin)}
    (hcreatable : ∃ made, b.files.makeDirs b.here (root.child key.name) = .ok made)
    (hr : r ≠ .ok none) (harrange : Arrangement root dest key b r b') :
    ¬ ToBuild root key b := by
  rintro ⟨hout, hcancel⟩
  cases harrange with
  | taken hin _ => simp [hin] at hout
  | untaken hin _ => simp [hin] at hout
  | unmade _ hmake =>
      obtain ⟨made, hmade⟩ := hcreatable
      rw [hmade] at hmake
      cases hmake
  | stopped _ _ htoken ht => exact Bench.Cancelled.not_uncancelled ⟨_, htoken, ht⟩ hcancel
  | arranged _ _ _ _ => exact hr rfl

theorem Delivery.calls {r : Except Failure Origin}
    (hcreatable : ∃ made, b.files.makeDirs b.here (root.child key.name) = .ok made)
    (hdelivery : Delivery tools dotnet root dest key b r b') :
    ToBuild root key b ∧ b'.calls = b.calls ++ [buildCall dotnet root key] ∨
      ¬ ToBuild root key b ∧ b'.calls = b.calls := by
  cases hdelivery with
  | unarranged harrange => exact .inr ⟨harrange.not_toBuild hcreatable (by simp), harrange.calls⟩
  | cached harrange => exact .inr ⟨harrange.not_toBuild hcreatable (by simp), harrange.calls⟩
  | failed harrange _ =>
      refine .inl ⟨harrange.toBuild, ?_⟩
      rw [built, called, harrange.calls]
  | collected harrange _ hcollect =>
      refine .inl ⟨harrange.toBuild, ?_⟩
      rw [hcollect.calls, built, called, harrange.calls]

/-! ## The destination -/

/-- At a location and below it everything looks as before. -/
def Untouched (d : Location) (t u : Tree) : Prop :=
  ∀ l, d <+: l → u.look l = t.look l

/-- A destination that the build of a loader does not touch: it is neither in the directory of the
key, which can be made, nor around it. -/
structure Spared (tools : Tools) (dotnet : String) (root dest : Path) (key : Key) (b : Bench) :
    Prop where
  build : ∀ calls t, Untouched (dest.spelled b.here) t
    (tools calls (buildCall dotnet root key) t).files
  outside : ¬ dest.spelled b.here <+: (root.child key.name).spelled b.here
  apart : ¬ (root.child key.name).spelled b.here <+: dest.spelled b.here
  creatable : ∃ made, b.files.makeDirs b.here (root.child key.name) = .ok made

/-- Nothing is below two locations of which neither is below the other. -/
theorem not_below_both {d f l : Location} (houtside : ¬ d <+: f) (hapart : ¬ f <+: d)
    (hbelow : d <+: l) : ¬ f <+: l := by
  intro hfolder
  rcases List.prefix_or_prefix_of_prefix hbelow hfolder with h | h
  · exact houtside h
  · exact hapart h

namespace Spared

variable (hspared : Spared tools dotnet root dest key b)
include hspared

/-- The destination is not around the directory that builds go to either. -/
theorem not_above_out : ¬ dest.spelled b.here <+: (key.out root).spelled b.here := by
  rw [Key.out, Path.spelled_child isName_outFolder, List.prefix_concat_iff]
  rintro (heq | hbelow)
  · exact hspared.apart (heq ▸ List.prefix_append _ _)
  · exact hspared.outside hbelow

theorem paved_of_arranged (harrange : Arrangement root dest key b (.ok none) b₁) {l : Location}
    (hl : dest.spelled b.here <+: l) :
    Tree.PavedAt b.here (root.child key.name) b.files b₁.files l := by
  cases harrange with
  | arranged _ hmake _ harranged =>
      have hframe := harranged.frame l (not_below_both hspared.outside hspared.apart hl)
      exact (Tree.paved_of_makeDirs hmake l).congr hframe

theorem paved_of_build (harrange : Arrangement root dest key b (.ok none) b₁) {l : Location}
    (hl : dest.spelled b.here <+: l) :
    Tree.PavedAt b.here (root.child key.name) b.files (built tools dotnet root key b₁).files l :=
  (hspared.paved_of_arranged harrange hl).congr (hspared.build _ _ l hl)

/-- After a failure that a step foresees, directories may have come up in the destination if they
were on the way to that of the key; nothing else has changed. -/
theorem paved {kind : StepKind} {m : String}
    (hdelivery : Delivery tools dotnet root dest key b (.error (.step kind m)) b') {l : Location}
    (hl : dest.spelled b.here <+: l) :
    Tree.PavedAt b.here (root.child key.name) b.files b'.files l := by
  cases hdelivery with
  | unarranged harrange =>
      cases harrange with
      | stopped _ hmake _ _ => exact Tree.paved_of_makeDirs hmake l
  | failed harrange _ => exact hspared.paved_of_build harrange hl
  | collected harrange _ hcollect =>
      cases hcollect with
      | notBuilt _ => exact hspared.paved_of_build harrange hl
      | stopped _ _ _ => exact hspared.paved_of_build harrange hl

/-- A loader that was delivered is the one in the directory of the key. -/
theorem sameIn {origin : Origin}
    (hdelivery : Delivery tools dotnet root dest key b (.ok origin) b') :
    SameIn (key.out root) dest b' := by
  cases hdelivery with
  | cached harrange =>
      cases harrange with
      | taken _ hcopy => exact sameIn_of_copyTo hspared.not_above_out hcopy
  | collected harrange _ hcollect =>
      cases hcollect with
      | taken _ _ hcopy =>
          apply sameIn_of_copyTo _ hcopy
          rw [here_built, harrange.here]
          exact hspared.not_above_out

end Spared

/-! ## Whole installations -/

/-- A destination that an installation does not touch until it copies the loader: neither call
writes to it, and it is apart from the directory of the key, which can be made. -/
structure Sheltered (tools : Tools) (dotnet : String) (root dest : Path)
    (framework version : String) (b : Bench) : Prop where
  asked : Untouched (dest.spelled b.here) b.files
    (tools b.calls (versionCall dotnet) b.files).files
  spared : ∀ sdk b₁, (sdkVersion tools dotnet).run.run (asking b) = (.ok sdk, b₁) →
    Spared tools dotnet root dest ⟨version, framework, sdk⟩ b₁

/-- What an installation has done that ends in `r` and leaves `b'`. -/
structure AllOrNothing (tools : Tools) (dotnet : String) (root dest : Path)
    (framework version : String) (b : Bench) (r : Except Failure Origin) (b' : Bench) : Prop where
  /-- After a failure that it foresees nothing in the destination has changed, but that directories
  have come up which were missing on the way to that of the key. -/
  nothing : ∀ kind m, r = .error (.step kind m) → ∀ l, dest.spelled b.here <+: l →
    b'.files.look l = b.files.look l ∨
      ∃ sdk b₁, (sdkVersion tools dotnet).run.run (asking b) = (.ok sdk, b₁) ∧
        Tree.PavedAt b.here (root.child (Key.name ⟨version, framework, sdk⟩)) b.files b'.files l
  /-- After a success both binaries are in the destination. -/
  present : ∀ origin, r = .ok origin → isIn dest b'.files b'.here = true
  /-- If they were there before, nothing is done. -/
  there : isIn dest b.files b.here = true → r = .ok .cached ∧ b' = b
  /-- If not, they are as those in the directory of the key. -/
  same : ∀ origin, r = .ok origin → isIn dest b.files b.here = false →
    ∃ sdk b₁, (sdkVersion tools dotnet).run.run (asking b) = (.ok sdk, b₁) ∧
      SameIn (Key.out ⟨version, framework, sdk⟩ root) dest b'
  calls : b'.calls = b.calls ∨ b'.calls = b.calls ++ [versionCall dotnet] ∨
    ∃ sdk b₁, (sdkVersion tools dotnet).run.run (asking b) = (.ok sdk, b₁) ∧
      b'.calls = b.calls ++ [versionCall dotnet, buildCall dotnet root ⟨version, framework, sdk⟩]
  /-- The loader is built if the destination lacks a binary, the version is told, the directory of
  the key lacks one too, and there is no request to cancel by then. -/
  build : (∃ key, b'.calls = b.calls ++ [versionCall dotnet, buildCall dotnet root key]) ↔
    Missing b dest ∧ ∃ sdk b₁, (sdkVersion tools dotnet).run.run (asking b) = (.ok sdk, b₁) ∧
      isIn (Key.out ⟨version, framework, sdk⟩ root) b₁.files b₁.here = false ∧ b₁.Uncancelled

theorem SameIn.isIn {source dest : Path} (hsame : SameIn source dest b) :
    isIn dest b.files b.here = true := by
  rw [Loader.isIn, List.all_eq_true]
  intro name hname
  obtain ⟨content, hread, -⟩ := hsame name hname
  exact Tree.holds_of_read hread

namespace Installation

variable {r : Except Failure Origin}

theorem there_of_isIn (hin : isIn dest b.files b.here = true)
    (hends : Installation tools dotnet root dest framework version b r b') :
    r = .ok .cached ∧ b' = b := by
  cases hends with
  | nowhere hdir => simp [isDir_of_isIn hin] at hdir
  | there _ => exact ⟨rfl, rfl⟩
  | untold hmissing _ => simp [hmissing.binaries] at hin
  | told hmissing _ _ => simp [hmissing.binaries] at hin

variable (hsheltered : Sheltered tools dotnet root dest framework version b)
include hsheltered

theorem paved {kind : StepKind} {m : String} {l : Location} (hl : dest.spelled b.here <+: l)
    (hends : Installation tools dotnet root dest framework version b (.error (.step kind m)) b') :
    b'.files.look l = b.files.look l ∨
      ∃ sdk b₁, (sdkVersion tools dotnet).run.run (asking b) = (.ok sdk, b₁) ∧
        Tree.PavedAt b.here (root.child (Key.name ⟨version, framework, sdk⟩)) b.files
          b'.files l := by
  cases hends with
  | nowhere _ => exact .inl rfl
  | untold _ hversion =>
      left
      rcases bench_of_sdkVersion hversion with rfl | rfl
      · rfl
      · exact hsheltered.asked l hl
  | told _ hversion hdelivery =>
      right
      refine ⟨_, _, hversion, ?_⟩
      have hspared := hsheltered.spared _ _ hversion
      obtain ⟨-, -, -, rfl⟩ := told_of_sdkVersion hversion
      have hpaved := hspared.paved hdelivery hl
      rw [Tree.PavedAt, ← hsheltered.asked l hl]
      exact hpaved

theorem sameIn {origin : Origin} (hmissing : isIn dest b.files b.here = false)
    (hends : Installation tools dotnet root dest framework version b (.ok origin) b') :
    ∃ sdk b₁, (sdkVersion tools dotnet).run.run (asking b) = (.ok sdk, b₁) ∧
      SameIn (Key.out ⟨version, framework, sdk⟩ root) dest b' := by
  cases hends with
  | there hin => simp [hin] at hmissing
  | told _ hversion hdelivery =>
      exact ⟨_, _, hversion, (hsheltered.spared _ _ hversion).sameIn hdelivery⟩

/-- The calls of an installation, by whether the loader was to be built. -/
theorem calls (hends : Installation tools dotnet root dest framework version b r b') :
    (b'.calls = b.calls ∨ b'.calls = b.calls ++ [versionCall dotnet]) ∧
        ¬ (Missing b dest ∧ ∃ sdk b₁,
          (sdkVersion tools dotnet).run.run (asking b) = (.ok sdk, b₁) ∧
          ToBuild root ⟨version, framework, sdk⟩ b₁) ∨
      Missing b dest ∧ ∃ sdk b₁, (sdkVersion tools dotnet).run.run (asking b) = (.ok sdk, b₁) ∧
        ToBuild root ⟨version, framework, sdk⟩ b₁ ∧
        b'.calls =
          b.calls ++ [versionCall dotnet, buildCall dotnet root ⟨version, framework, sdk⟩] := by
  cases hends with
  | nowhere hdir =>
      refine .inl ⟨.inl rfl, ?_⟩
      rintro ⟨hmissing, -⟩
      simp [hmissing.dir] at hdir
  | there hin =>
      refine .inl ⟨.inl rfl, ?_⟩
      rintro ⟨hmissing, -⟩
      simp [hmissing.binaries] at hin
  | untold _ hversion =>
      refine .inl ⟨?_, ?_⟩
      · rcases bench_of_sdkVersion hversion with rfl | rfl
        · exact .inl rfl
        · exact .inr rfl
      · rintro ⟨-, sdk, b₁, htold, -⟩
        rw [hversion] at htold
        cases htold
  | @told sdk _ b₁ _ hmissing hversion hdelivery =>
      have hspared := hsheltered.spared sdk b₁ hversion
      have hb₁ : b₁.calls = b.calls ++ [versionCall dotnet] := by
        obtain ⟨-, -, -, rfl⟩ := told_of_sdkVersion hversion
        rfl
      rcases hdelivery.calls hspared.creatable with ⟨hbuild, hcalls⟩ | ⟨hnone, hcalls⟩
      · refine .inr ⟨hmissing, sdk, b₁, hversion, hbuild, ?_⟩
        rw [hcalls, hb₁, List.append_assoc]
        rfl
      · refine .inl ⟨.inr (hcalls.trans hb₁), ?_⟩
        rintro ⟨-, sdk', b₁', htold, hbuild⟩
        rw [hversion] at htold
        cases htold
        exact hnone hbuild

end Installation

/-- An installation that fails in a way that it foresees leaves nothing in the destination, and one
that succeeds leaves both binaries there. -/
theorem install_allOrNothing
    (hsheltered : Sheltered tools dotnet root dest framework version b) :
    AllOrNothing tools dotnet root dest framework version b
      ((install tools dotnet root dest framework version).run.run b).1
      ((install tools dotnet root dest framework version).run.run b).2 := by
  rcases hrun : (install tools dotnet root dest framework version).run.run b with ⟨r, b'⟩
  have hends := installation_of_run hrun
  constructor
  case nothing =>
    rintro kind m rfl l hl
    exact hends.paved hsheltered hl
  case present =>
    rintro origin rfl
    cases hin : isIn dest b.files b.here with
    | true =>
        obtain ⟨-, rfl⟩ := hends.there_of_isIn hin
        exact hin
    | false =>
        obtain ⟨_, _, -, hsame⟩ := hends.sameIn hsheltered hin
        exact hsame.isIn
  case there => exact fun hin => hends.there_of_isIn hin
  case same =>
    rintro origin rfl hmissing
    exact hends.sameIn hsheltered hmissing
  case calls =>
    rcases hends.calls hsheltered with ⟨hcalls | hcalls, -⟩ | ⟨-, sdk, b₁, hversion, -, hcalls⟩
    · exact .inl hcalls
    · exact .inr (.inl hcalls)
    · exact .inr (.inr ⟨sdk, b₁, hversion, hcalls⟩)
  case build =>
    rcases hends.calls hsheltered with
      ⟨hcalls, hnone⟩ | ⟨hmissing, sdk, b₁, hversion, hbuild, hcalls⟩
    · refine iff_of_false (fun ⟨key, hboth⟩ => ?_) hnone
      rcases hcalls with hcalls | hcalls
      · simp [hcalls] at hboth
      · simp [hcalls] at hboth
    · exact iff_of_true ⟨_, hcalls⟩ ⟨hmissing, sdk, b₁, hversion, hbuild⟩

end

/-- A destination with one of the binaries. -/
def halfBench : Bench :=
  { sampleBench with
    files := ⟨[("cache", .dir []), ("bin", .dir [(program ++ ".dll", .file [0] false)])]⟩ }

theorem sheltered_halfBench :
    Sheltered sampleTools "dotnet" sampleRoot ⟨.root, ["bin"]⟩ "net8.0" "1" halfBench where
  asked l _ := rfl
  spared sdk b₁ hversion := by
    obtain ⟨result, houtcome, hsdk, rfl⟩ := told_of_sdkVersion hversion
    obtain rfl : { output := "8.0.100\n" } = result := Except.ok.inj houtcome
    obtain rfl : sdk = "8.0.100" := hsdk.trans (by decide)
    constructor
    case build =>
      intro calls t l hl
      have hparts : (Path.ofString (sampleRoot.child
          (Key.name ⟨"1", "net8.0", "8.0.100"⟩)).text).parts =
            ["cache", "1_net8.0_8.0.100"] := by decide
      simp only [sampleTools, buildCall, hparts]
      exact look_stock_of_not_below (not_below_both (by decide) (by decide) hl) t
    case outside => decide
    case apart => decide
    case creatable => exact ⟨_, rfl⟩

theorem install_allOrNothing_half :
    Sheltered sampleTools "dotnet" sampleRoot ⟨.root, ["bin"]⟩ "net8.0" "1" halfBench ∧
      AllOrNothing sampleTools "dotnet" sampleRoot ⟨.root, ["bin"]⟩ "net8.0" "1" halfBench
        ((install sampleTools "dotnet" sampleRoot ⟨.root, ["bin"]⟩ "net8.0" "1").run.run
          halfBench).1
        ((install sampleTools "dotnet" sampleRoot ⟨.root, ["bin"]⟩ "net8.0" "1").run.run
          halfBench).2 ∧
      ((install sampleTools "dotnet" sampleRoot ⟨.root, ["bin"]⟩ "net8.0" "1").run.run
        halfBench).1.toOption = some .built :=
  ⟨sheltered_halfBench, install_allOrNothing sheltered_halfBench, by decide +kernel⟩

/-- A build program that tells its version and is told to stop meanwhile. -/
def haltingTools : Tools := fun _ _ t =>
  { files := t, cancel := some (some "Stop."), outcome := .ok { output := "8.0.100\n" } }

/-- An empty destination, and a token. -/
def openBench : Bench :=
  { sampleBench with files := ⟨[("d", .dir [])]⟩, token := some {} }

/-- A root of the cache beside the destination whose path leads through it. -/
def crossingRoot : Path := ⟨.relative, ["d", "sub", "..", "..", "cache"]⟩

theorem sheltered_openBench :
    Sheltered haltingTools "dotnet" crossingRoot ⟨.relative, ["d"]⟩ "net8.0" "1" openBench where
  asked l _ := rfl
  spared sdk b₁ hversion := by
    obtain ⟨result, houtcome, hsdk, rfl⟩ := told_of_sdkVersion hversion
    obtain rfl : { output := "8.0.100\n" } = result := Except.ok.inj houtcome
    obtain rfl : sdk = "8.0.100" := hsdk.trans (by decide)
    exact ⟨fun _ _ _ _ => rfl, by decide, by decide, ⟨_, rfl⟩⟩

/-- A directory on such a way comes up in the destination and stays there. -/
theorem install_paves :
    Sheltered haltingTools "dotnet" crossingRoot ⟨.relative, ["d"]⟩ "net8.0" "1" openBench ∧
      ¬ ∀ kind m, ((install haltingTools "dotnet" crossingRoot ⟨.relative, ["d"]⟩ "net8.0"
          "1").run.run openBench).1 = .error (.step kind m) →
        Untouched (Path.spelled openBench.here ⟨.relative, ["d"]⟩) openBench.files
          ((install haltingTools "dotnet" crossingRoot ⟨.relative, ["d"]⟩ "net8.0" "1").run.run
            openBench).2.files := by
  refine ⟨sheltered_openBench, fun hnothing => ?_⟩
  have hsame := hnothing .cancelled "Stop." rfl ["d", "sub"] (by decide)
  have hnew : ((install haltingTools "dotnet" crossingRoot ⟨.relative, ["d"]⟩ "net8.0" "1").run.run
      openBench).2.files.look ["d", "sub"] = some .dir := by decide +kernel
  rw [hnew] at hsame
  cases hsame

end JitLens.Loader
