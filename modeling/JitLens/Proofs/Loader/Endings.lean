import JitLens.Proofs.Loader.Keys
import JitLens.Proofs.Run.Reported
/-!
# Endings of an installation

What each part of an installation can end in, and what it leaves then, on any files and with any
tools.  What holds of a whole installation follows by going through these endings.
-/

namespace JitLens.Loader

open Files JitLens.Action

variable {tools : Tools} {dotnet framework version sdk : String} {root dest : Path} {key : Key}
  {b b' : Bench}

/-! ## Copies -/

theorem copyFile_eq_ok {source target : Path}
    (hrun : (copyFile source target).run.run b = (.ok (), b')) :
    ∃ t, b.files.copyFile b.here source target = .ok t ∧ b' = { b with files := t } := by
  unfold copyFile at hrun
  rw [run_bind_ok (run_get b)] at hrun
  split at hrun
  · next t hcopy =>
    cases hrun
    exact ⟨t, hcopy, rfl⟩
  · cases hrun
  · cases hrun

/-- Copies that succeed have found a file under each name, and changed nothing else. -/
theorem copied_of_run {names : List String} {source dest : Path} {s d : Location}
    (hnames : ∀ n ∈ names, IsName n) (hnodup : names.Nodup)
    (hsource : b.files.locate b.here source = .ok s) (hs : b.files.look s = some .dir)
    (hdest : b.files.locate b.here dest = .ok d) (hd : b.files.look d = some .dir) (hne : s ≠ d)
    (hrun : (names.forM fun n => copyFile (source.child n) (dest.child n)).run.run b =
      (.ok (), b')) :
    b'.here = b.here ∧ Copied names s d b.files b'.files := by
  induction names generalizing b with
  | nil =>
      cases hrun
      exact ⟨rfl, Tree.KeepsDirs.refl _, fun _ _ => rfl, nofun⟩
  | cons n names ih =>
      obtain ⟨hnew, hrest⟩ := List.nodup_cons.1 hnodup
      have hname := hnames n (by simp)
      obtain ⟨⟨⟩, b₁, hfirst, hlast⟩ := exists_of_run_bind_ok hrun
      obtain ⟨t, hcopy, rfl⟩ := copyFile_eq_ok hfirst
      obtain ⟨origin, goal, content, x, y, horigin, hfile, hgoal, hopen, rfl⟩ :=
        Tree.copyFile_eq_ok hcopy
      rw [Tree.locate_child hname hsource hs, Except.ok.injEq] at horigin
      rw [Tree.locate_child hname hdest hd, Except.ok.injEq] at hgoal
      subst horigin hgoal
      have hkeeps : Tree.KeepsDirs b.files (b.files.putFile (d ++ [n]) content y) :=
        Tree.KeepsDirs.put hopen _
      obtain ⟨hhere, hcopied⟩ := ih (b := { b with files := b.files.putFile (d ++ [n]) content y })
        (fun k hk => hnames k (by simp [hk])) hrest
        (Tree.locate_of_keepsDirs hkeeps hsource) (hkeeps s hs)
        (Tree.locate_of_keepsDirs hkeeps hdest) (hkeeps d hd) hlast
      exact ⟨hhere, .cons hnew hs hd hne hfile hopen hcopied⟩

/-- Both binaries are read in two directories, with the same content. -/
def SameIn (source dest : Path) (b : Bench) : Prop :=
  ∀ name ∈ binaries, ∃ content, b.files.read b.here (dest.child name) = .ok content ∧
    b.files.read b.here (source.child name) = .ok content

theorem sameIn_of_copyTo {source dest : Path}
    (houtside : ¬ dest.spelled b.here <+: source.spelled b.here)
    (hrun : (copyTo source dest).run.run b = (.ok (), b')) : SameIn source dest b' := by
  have hname := isName_binaries (program ++ ".dll") (by decide)
  -- The first copy tells where the two directories are.
  obtain ⟨⟨⟩, b₁, hfirst, -⟩ := exists_of_run_bind_ok hrun
  obtain ⟨t, hcopy, -⟩ := copyFile_eq_ok hfirst
  obtain ⟨origin, goal, -, -, -, horigin, -, hgoal, -, -⟩ := Tree.copyFile_eq_ok hcopy
  obtain ⟨s, hsource, hs, -⟩ := Tree.locate_of_child hname horigin
  obtain ⟨d, hdest, hd, -⟩ := Tree.locate_of_child hname hgoal
  rw [Tree.spelled_of_locate hsource, Tree.spelled_of_locate hdest] at houtside
  have hne : s ≠ d := by
    rintro rfl
    exact houtside (List.prefix_refl s)
  obtain ⟨hhere, hcopied⟩ :=
    copied_of_run isName_binaries nodup_binaries hsource hs hdest hd hne hrun
  intro name hmem
  obtain ⟨content, x, y, hfile, hcopy⟩ := hcopied.same name hmem
  have hstill := hcopied.frame (s ++ [name]) fun n _ => not_below_outside houtside n name
  have hchild := isName_binaries name hmem
  rw [hhere]
  exact ⟨content,
    Tree.read_of_look (Tree.locate_child hchild (Tree.locate_of_keepsDirs hcopied.keeps hdest)
      (hcopied.keeps d hd)) hcopy,
    Tree.read_of_look (Tree.locate_child hchild (Tree.locate_of_keepsDirs hcopied.keeps hsource)
      (hcopied.keeps s hs)) (hstill.trans hfile)⟩

/-- No tool is at work in a copy, so that nothing but a fault ends it. -/
theorem fault_of_copyTo {source dest : Path} {f : Failure}
    (hrun : (copyTo source dest).run.run b = (.error f, b')) : ∃ e, f = .fault e := by
  have hraised : Raised (fun _ _ t => { files := t, outcome := .ok {} }) [] f :=
    raises_copyTo source dest f b' hrun
  cases hraised with
  | step _ hkind => cases hkind
  | fault e => exact ⟨e, rfl⟩
  | tool houtcome => cases houtcome

/-! ## What is arranged -/

/-- What is arranged for a key: the loader is taken from the cache, or its directory there is made
and gets the sources. -/
inductive Arrangement (root dest : Path) (key : Key) (b : Bench) :
    Except Failure (Option Origin) → Bench → Prop where
  | taken {b' : Bench} (hin : isIn (key.out root) b.files b.here = true)
      (hcopy : (copyTo (key.out root) dest).run.run b = (.ok (), b')) :
    Arrangement root dest key b (.ok (some .cached)) b'
  | untaken {e : Fault} {b' : Bench} (hin : isIn (key.out root) b.files b.here = true)
      (hcopy : (copyTo (key.out root) dest).run.run b = (.error (.fault e), b')) :
    Arrangement root dest key b (.error (.fault e)) b'
  | unmade {e : FileError} (hout : isIn (key.out root) b.files b.here = false)
      (hmake : b.files.makeDirs b.here (root.child key.name) = .error e) :
    Arrangement root dest key b (.error (.fault (.file e)))
      { b with files := b.files.partDirs b.here (root.child key.name) }
  | stopped {made : Tree} {t : Token} (hout : isIn (key.out root) b.files b.here = false)
      (hmake : b.files.makeDirs b.here (root.child key.name) = .ok made)
      (htoken : b.token = some t) (ht : t.cancelled = true) :
    Arrangement root dest key b (.error (.step .cancelled t.message)) { b with files := made }
  | arranged {made t : Tree} (hout : isIn (key.out root) b.files b.here = false)
      (hmake : b.files.makeDirs b.here (root.child key.name) = .ok made)
      (hcancel : b.Uncancelled)
      (harranged : Arranged ((root.child key.name).spelled b.here) made t) :
    Arrangement root dest key b (.ok none) (arranging t b)

theorem arrangement_of_run {r : Except Failure (Option Origin)}
    (hrun : (arrange root key dest).run.run b = (r, b')) : Arrangement root dest key b r b' := by
  cases hin : isIn (key.out root) b.files b.here with
  | true =>
      rw [arrange, run_bind_ok (run_get b), if_pos hin] at hrun
      rcases hcopy : (copyTo (key.out root) dest).run.run b with ⟨f | ⟨⟩, b₁⟩
      · rw [run_bind_error hcopy] at hrun
        cases hrun
        obtain ⟨e, rfl⟩ := fault_of_copyTo hcopy
        exact .untaken hin hcopy
      · rw [run_bind_ok hcopy] at hrun
        cases hrun
        exact .taken hin hcopy
  | false =>
      have hstart := hrun
      rw [arrange, run_bind_ok (run_get b), if_neg (by simp [hin])] at hstart
      cases hmake : b.files.makeDirs b.here (root.child key.name) with
      | error e =>
          rw [run_bind_error (run_makeDirs_error hmake)] at hstart
          cases hstart
          exact .unmade hin hmake
      | ok made =>
          -- A request to cancel is seen only now that the directory is made.
          rcases b.cancelled_or_uncancelled with ⟨t, htoken, ht⟩ | hcancel
          · rw [run_bind_ok (run_makeDirs_ok hmake),
              run_bind_error (run_checkCancelled_of_token (by exact htoken) ht)] at hstart
            cases hstart
            exact .stopped hin hmake htoken ht
          · obtain ⟨f, hfolder, hdir⟩ :=
              Tree.isDir_iff.1 (Tree.isDir_of_makeDirs (key.parts_child_ne_nil root) hmake)
            obtain ⟨t, harrange, harranged⟩ :=
              exists_run_arrange dest hcancel hin hmake hfolder hdir
            rw [harrange] at hrun
            cases hrun
            rw [← Tree.spelled_of_locate hfolder] at harranged
            exact .arranged hin hmake hcancel harranged

/-! ## What is collected -/

/-- What a build is followed by ends in one of these ways. -/
inductive Collection (root dest : Path) (key : Key) (result : ToolResult) (b : Bench) :
    Except Failure Origin → Bench → Prop where
  | notBuilt (hout : isIn (key.out root) b.files b.here = false) :
    Collection root dest key result b
      (.error (.step .loaderBuild (notBuilt (key.out root) result))) b
  | stopped {t : Token} (hin : isIn (key.out root) b.files b.here = true)
      (htoken : b.token = some t) (ht : t.cancelled = true) :
    Collection root dest key result b (.error (.step .cancelled t.message)) b
  | taken {b' : Bench} (hin : isIn (key.out root) b.files b.here = true) (hcancel : b.Uncancelled)
      (hcopy : (copyTo (key.out root) dest).run.run b = (.ok (), b')) :
    Collection root dest key result b (.ok .built) b'
  | untaken {e : Fault} {b' : Bench} (hin : isIn (key.out root) b.files b.here = true)
      (hcancel : b.Uncancelled)
      (hcopy : (copyTo (key.out root) dest).run.run b = (.error (.fault e), b')) :
    Collection root dest key result b (.error (.fault e)) b'

theorem collection_of_run {result : ToolResult} {r : Except Failure Origin}
    (hrun : (collect root key dest result).run.run b = (r, b')) :
    Collection root dest key result b r b' := by
  cases hin : isIn (key.out root) b.files b.here with
  | false =>
      rw [run_collect_of_missing hin] at hrun
      cases hrun
      exact .notBuilt hin
  | true =>
      rw [collect, run_bind_ok (run_get b), if_neg (by simp [hin])] at hrun
      rcases b.cancelled_or_uncancelled with ⟨t, htoken, ht⟩ | hcancel
      · rw [run_bind_error (run_checkCancelled_of_token htoken ht)] at hrun
        cases hrun
        exact .stopped hin htoken ht
      · rw [run_bind_ok (run_checkCancelled hcancel)] at hrun
        rcases hcopy : (copyTo (key.out root) dest).run.run b with ⟨f | ⟨⟩, b₁⟩
        · rw [run_bind_error hcopy] at hrun
          cases hrun
          obtain ⟨e, rfl⟩ := fault_of_copyTo hcopy
          exact .untaken hin hcancel hcopy
        · rw [run_bind_ok hcopy] at hrun
          cases hrun
          exact .taken hin hcancel hcopy

/-! ## What is delivered -/

/-- The bench after the call that builds the loader, from the one when it was arranged. -/
def built (tools : Tools) (dotnet : String) (root : Path) (key : Key) (b : Bench) : Bench :=
  called tools (buildCall dotnet root key) b

/-- Once the version is known, an installation ends in one of these ways. -/
inductive Delivery (tools : Tools) (dotnet : String) (root dest : Path) (key : Key) (b : Bench) :
    Except Failure Origin → Bench → Prop where
  | unarranged {f : Failure} {b' : Bench} (harrange : Arrangement root dest key b (.error f) b') :
    Delivery tools dotnet root dest key b (.error f) b'
  | cached {origin : Origin} {b' : Bench}
      (harrange : Arrangement root dest key b (.ok (some origin)) b') :
    Delivery tools dotnet root dest key b (.ok origin) b'
  | failed {f : Failure} {b₁ : Bench} (harrange : Arrangement root dest key b (.ok none) b₁)
      (houtcome : (tools b₁.calls (buildCall dotnet root key) b₁.files).outcome = .error f) :
    Delivery tools dotnet root dest key b (.error f) (built tools dotnet root key b₁)
  | collected {result : ToolResult} {r : Except Failure Origin} {b₁ b' : Bench}
      (harrange : Arrangement root dest key b (.ok none) b₁)
      (houtcome : (tools b₁.calls (buildCall dotnet root key) b₁.files).outcome = .ok result)
      (hcollect : Collection root dest key result (built tools dotnet root key b₁) r b') :
    Delivery tools dotnet root dest key b r b'

theorem Arrangement.uncancelled (harrange : Arrangement root dest key b (.ok none) b') :
    b'.Uncancelled := by
  cases harrange with
  | arranged _ _ hcancel _ => exact hcancel

theorem Arrangement.here (harrange : Arrangement root dest key b (.ok none) b') :
    b'.here = b.here := by
  cases harrange with
  | arranged _ _ _ _ => rfl

theorem here_built (b : Bench) : (built tools dotnet root key b).here = b.here := rfl

theorem delivery_of_run {r : Except Failure Origin}
    (hrun : (deliver tools dotnet root dest key).run.run b = (r, b')) :
    Delivery tools dotnet root dest key b r b' := by
  rw [deliver] at hrun
  rcases harrange : (arrange root key dest).run.run b with ⟨f | origin?, b₁⟩
  · rw [run_bind_error harrange] at hrun
    cases hrun
    exact .unarranged (arrangement_of_run harrange)
  · rw [run_bind_ok harrange] at hrun
    have harrange := arrangement_of_run harrange
    cases origin? with
    | some origin =>
        cases hrun
        exact .cached harrange
    | none =>
        dsimp only at hrun
        have hcall := run_call tools (buildCall dotnet root key) harrange.uncancelled.not_refuses
        cases houtcome : (tools b₁.calls (buildCall dotnet root key) b₁.files).outcome with
        | error f =>
            rw [houtcome] at hcall
            rw [run_bind_error hcall] at hrun
            cases hrun
            exact .failed harrange houtcome
        | ok result =>
            rw [houtcome] at hcall
            rw [run_bind_ok hcall] at hrun
            exact .collected harrange houtcome (collection_of_run hrun)

/-! ## Whole installations -/

/-- An installation ends in one of these ways. -/
inductive Installation (tools : Tools) (dotnet : String) (root dest : Path)
    (framework version : String) (b : Bench) : Except Failure Origin → Bench → Prop where
  | nowhere (hdir : b.files.isDir b.here dest = false) :
    Installation tools dotnet root dest framework version b
      (.error (.step .loaderBuild ("ERROR: dest dir was not found: " ++ dest.text))) b
  | there (hin : isIn dest b.files b.here = true) :
    Installation tools dotnet root dest framework version b (.ok .cached) b
  | untold {f : Failure} {b' : Bench} (hmissing : Missing b dest)
      (hversion : (sdkVersion tools dotnet).run.run (asking b) = (.error f, b')) :
    Installation tools dotnet root dest framework version b (.error f) b'
  | told {sdk : String} {r : Except Failure Origin} {b₁ b' : Bench} (hmissing : Missing b dest)
      (hversion : (sdkVersion tools dotnet).run.run (asking b) = (.ok sdk, b₁))
      (hdelivery : Delivery tools dotnet root dest ⟨version, framework, sdk⟩ b₁ r b') :
    Installation tools dotnet root dest framework version b r b'

theorem installation_of_run {r : Except Failure Origin}
    (hrun : (install tools dotnet root dest framework version).run.run b = (r, b')) :
    Installation tools dotnet root dest framework version b r b' := by
  cases hdir : b.files.isDir b.here dest with
  | false =>
      have hbegin : (begin dest).run.run b =
          (.error (.step .loaderBuild ("ERROR: dest dir was not found: " ++ dest.text)), b) := by
        unfold begin
        rw [run_bind_ok (run_get b), hdir]
        rfl
      rw [install, run_bind_error hbegin] at hrun
      cases hrun
      exact .nowhere hdir
  | true =>
      cases hin : isIn dest b.files b.here with
      | true =>
          rw [install, run_bind_ok (run_begin_of_isIn hin)] at hrun
          cases hrun
          exact .there hin
      | false =>
          have hmissing : Missing b dest := ⟨hdir, hin⟩
          have hbegin := run_begin_of_missing hmissing
          rcases hversion : (sdkVersion tools dotnet).run.run (asking b) with ⟨f | sdk, b₁⟩
          · rw [install, run_bind_ok hbegin] at hrun
            dsimp only at hrun
            rw [run_bind_error hversion] at hrun
            cases hrun
            exact .untold hmissing hversion
          · have hversioned : Versioned tools dotnet dest b sdk b₁ := ⟨_, hbegin, hversion⟩
            rw [hversioned.run_install] at hrun
            exact .told hmissing hversion (delivery_of_run hrun)

/-- What the call for the version leaves, whether it tells it or not. -/
theorem bench_of_sdkVersion {r : Except Failure String}
    (hrun : (sdkVersion tools dotnet).run.run b = (r, b')) :
    b' = b ∨ b' = called tools (versionCall dotnet) b := by
  unfold sdkVersion at hrun
  rcases hcall : (Action.call tools (versionCall dotnet)).run.run b with ⟨f | result, b₁⟩
  · rw [run_bind, run_tryCatch_error hcall] at hrun
    cases hcancelled : f.isCancelled with
    | true =>
        rw [hcancelled] at hrun
        cases hrun
        exact bench_of_call hcall
    | false =>
        rw [hcancelled] at hrun
        cases hrun
        exact bench_of_call hcall
  · rw [run_bind_ok (run_tryCatch_ok hcall)] at hrun
    cases hrun
    exact bench_of_call hcall

theorem told_of_sdkVersion (hversion : (sdkVersion tools dotnet).run.run b = (.ok sdk, b')) :
    ∃ result, (tools b.calls (versionCall dotnet) b.files).outcome = .ok result ∧
      sdk = Text.trimmed result.output ∧ b' = called tools (versionCall dotnet) b := by
  obtain ⟨result, hcall, hsdk⟩ := sdkVersion_eq_ok hversion
  obtain ⟨houtcome, hcalled⟩ := call_eq_ok hcall
  exact ⟨result, houtcome, hsdk, hcalled⟩

end JitLens.Loader
