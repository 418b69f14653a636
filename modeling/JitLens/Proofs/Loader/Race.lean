import JitLens.Proofs.Loader.Interleaving
import JitLens.Proofs.Loader.Sequence
/-!
# Installations that race

Installations of the loader for one key, each into a directory of its own, share the directory of the
key without a lock.  Whatever the order of their turns, all of them write the same sources and all
builds leave the same binaries, so that none of them fails and each of them delivers these binaries.
The invariant ties the shared directory to the count of the builds so far: there are no binaries
before the first build, and the right ones after it.
-/

namespace JitLens.Loader

open Files JitLens.Action

/-- Both binaries are in a directory and have the given bytes. -/
def Holds (bytes : String → Text.Bytes) (d : Location) (t : Tree) : Prop :=
  ∀ name ∈ binaries, ∃ x, t.look (d ++ [name]) = some (.file (bytes name) x)

/-- A build in the directory of a key leaves both binaries there, and nothing else changes. -/
structure Builds (folder : Location) (bytes : String → Text.Bytes) (t t' : Tree) : Prop where
  elsewhere : ∀ m, ¬ folder ++ [outFolder] <+: m → t'.look m = t.look m
  holds : Holds bytes (folder ++ [outFolder]) t'

/-- The build program tells its version, and builds the same binaries each time. -/
structure Installer.Reliable (c : Installer) (sdk : String) (folder : Location)
    (bytes : String → Text.Bytes) : Prop where
  version : ∀ calls t, ∃ result, c.tools calls (versionCall c.dotnet) t =
    { files := t, outcome := .ok result } ∧ Text.trimmed result.output = sdk
  build : ∀ calls t, t.look folder = some .dir → ∃ t' result,
    c.tools calls (buildCall c.dotnet c.root (c.key sdk)) t =
      { files := t', outcome := .ok result } ∧ Builds folder bytes t t'

variable {n : Nat}

/-- Installations before their first turns.  The directory of their key can be made, and holds
neither sources nor builds then; outside of it each one has a directory of its own to deliver to,
and nothing stands there under the name of a binary. -/
structure Race (c : Installer) (sdk : String) (dests : Fin n → Path) (b : Bench)
    (bytes : String → Text.Bytes) (made : Tree) (folder : Location) (place : Fin n → Location) :
    Prop where
  working : b.files.look b.here = some .dir
  uncancelled : b.Uncancelled
  make : b.files.makeDirs b.here (c.root.child (c.key sdk).name) = .ok made
  leads : made.locate b.here (c.root.child (c.key sdk).name) = .ok folder
  noCode : made.look (folder ++ [codeFile]) = none
  noProject : made.look (folder ++ [projectFile]) = none
  noBuild : made.look (folder ++ [outFolder]) = none
  delivers : ∀ i, b.files.locate b.here (dests i) = .ok (place i)
  there : ∀ i, b.files.look (place i) = some .dir
  free : ∀ i, ∀ name ∈ binaries, made.look (place i ++ [name]) = none
  own : Function.Injective place
  apart : ∀ i, ¬ folder <+: place i
  reliable : c.Reliable sdk folder bytes

/-- The tree once the sources are there: how many builds have been run, and which installations have
delivered. -/
structure Prepared (framework : String) (bytes : String → Text.Bytes) (made : Tree)
    (folder : Location) (place : Fin n → Location) (builds : Nat) (done : Fin n → Bool)
    (t : Tree) : Prop where
  keeps : Tree.KeepsDirs made t
  sourced : Sourced folder framework t
  unbuilt : builds = 0 → t.look (folder ++ [outFolder]) = none
  built : 0 < builds → Holds bytes (folder ++ [outFolder]) t
  after : ∀ i, done i = true → 0 < builds
  delivered : ∀ i, done i = true → Holds bytes (place i) t
  free : ∀ i, done i = false → ∀ name ∈ binaries, t.look (place i ++ [name]) = none

section

variable {c : Installer} {sdk : String} {dests : Fin n → Path} {b : Bench}
  {bytes : String → Text.Bytes} {made t t' : Tree} {folder : Location} {place : Fin n → Location}
  {builds : Nat} {done : Fin n → Bool} {i : Fin n}

/-! ## The directory of the key and the destinations -/

namespace Race

variable (hrace : Race c sdk dests b bytes made folder place)
include hrace

theorem keeps_made : Tree.KeepsDirs b.files made :=
  (Tree.makeDirs_isDir hrace.working hrace.make).2

theorem folder_isDir : made.look folder = some .dir :=
  Tree.look_of_isDir (Tree.makeDirs_isDir hrace.working hrace.make).1 hrace.leads

theorem free_before (i : Fin n) {name : String} (hname : name ∈ binaries) :
    b.files.look (place i ++ [name]) = none := by
  cases hlook : b.files.look (place i ++ [name]) with
  | none => rfl
  | some item =>
      have hmade := Tree.look_of_makeDirs hrace.make hlook
      rw [hrace.free i name hname] at hmade
      cases hmade

theorem folder_ne (i : Fin n) : folder ≠ place i := by
  intro heq
  exact hrace.apart i (heq ▸ List.prefix_refl _)

theorem not_below (i : Fin n) (k name : String) : ¬ folder ++ [k] <+: place i ++ [name] :=
  not_below_outside (hrace.apart i) k name

theorem out_ne (i : Fin n) : folder ++ [outFolder] ≠ place i := by
  intro heq
  exact hrace.apart i (heq ▸ List.prefix_append _ _)

/-- The sources are there, and nothing else is new but the directory of the key. -/
theorem prepared (hkeeps : Tree.KeepsDirs made t) (hsourced : Sourced folder c.framework t)
    (hframe : ∀ m, ¬ folder ++ [codeFile] <+: m → ¬ folder ++ [projectFile] <+: m →
      t.look m = made.look m) :
    Prepared c.framework bytes made folder place 0 (fun _ => false) t where
  keeps := hkeeps
  sourced := hsourced
  unbuilt _ := by
    rw [hframe _ (not_below_sibling (by decide)) (not_below_sibling (by decide))]
    exact hrace.noBuild
  built := nofun
  after := nofun
  delivered := nofun
  free j _ name hname := by
    rw [hframe _ (hrace.not_below j _ _) (hrace.not_below j _ _)]
    exact hrace.free j name hname

end Race

namespace Prepared

variable (hprepared : Prepared c.framework bytes made folder place builds done t)
  (hrace : Race c sdk dests b bytes made folder place)
include hprepared hrace

theorem folder_isDir : t.look folder = some .dir :=
  hprepared.keeps _ hrace.folder_isDir

theorem place_isDir (i : Fin n) : t.look (place i) = some .dir :=
  hprepared.keeps _ (hrace.keeps_made _ (hrace.there i))

theorem locate_folder : t.locate b.here (c.root.child (c.key sdk).name) = .ok folder :=
  Tree.locate_of_keepsDirs hprepared.keeps hrace.leads

theorem locate_dest (i : Fin n) : t.locate b.here (dests i) = .ok (place i) :=
  Tree.locate_of_keepsDirs (hrace.keeps_made.trans hprepared.keeps) (hrace.delivers i)

theorem locate_out : t.locate b.here ((c.key sdk).out c.root) = .ok (folder ++ [outFolder]) :=
  Tree.locate_child isName_outFolder (hprepared.locate_folder hrace) (hprepared.folder_isDir hrace)

omit hrace in
theorem out_isDir (hbuilds : 0 < builds) : t.look (folder ++ [outFolder]) = some .dir := by
  obtain ⟨x, hfile⟩ := hprepared.built hbuilds (program ++ ".dll") (by decide)
  exact Tree.look_of_look_append (List.cons_ne_nil _ _) hfile

/-- The loader is in the cache from the first build on. -/
theorem isIn_out : isIn ((c.key sdk).out c.root) t b.here = decide (0 < builds) := by
  by_cases hbuilds : 0 < builds
  · rw [decide_eq_true hbuilds,
      isIn_iff (hprepared.locate_out hrace) (hprepared.out_isDir hbuilds)]
    intro name hname
    obtain ⟨x, hfile⟩ := hprepared.built hbuilds name hname
    rw [hfile]
    rfl
  · rw [decide_eq_false hbuilds, Bool.eq_false_iff]
    intro hin
    have hdir := Tree.look_of_isDir (isDir_of_isIn hin) (hprepared.locate_out hrace)
    rw [hprepared.unbuilt (by omega)] at hdir
    cases hdir

/-! ## What builds and copies make of the tree -/

/-- A build takes nothing away but what an earlier one has left. -/
theorem build (hbuild : Builds folder bytes t t') :
    Prepared c.framework bytes made folder place (builds + 1) done t' where
  keeps m hm := by
    have hnot : made.look (folder ++ [outFolder]) ≠ some .dir := by simp [hrace.noBuild]
    rw [hbuild.elsewhere m (Tree.KeepsDirs.not_below hnot hm)]
    exact hprepared.keeps m hm
  sourced := by
    obtain ⟨⟨x, hcode⟩, y, hproject⟩ := hprepared.sourced
    refine ⟨⟨x, ?_⟩, y, ?_⟩
    · rwa [hbuild.elsewhere _ (not_below_sibling (by decide))]
    · rwa [hbuild.elsewhere _ (not_below_sibling (by decide))]
  unbuilt := nofun
  built _ := hbuild.holds
  after _ _ := Nat.succ_pos builds
  delivered j hj name hname := by
    rw [hbuild.elsewhere _ (hrace.not_below j _ _)]
    exact hprepared.delivered j hj name hname
  free j hj name hname := by
    rw [hbuild.elsewhere _ (hrace.not_below j _ _)]
    exact hprepared.free j hj name hname

/-- A copy changes nothing but the directory that it goes to. -/
theorem copy (hbuilds : 0 < builds) (hi : done i = false)
    (hcopied : Copied binaries (folder ++ [outFolder]) (place i) t t') :
    Prepared c.framework bytes made folder place builds (Function.update done i true) t' := by
  -- Nothing is below a binary that is still to be delivered, so that every other directory keeps
  -- what it holds: that of the key, that of the builds, and the other destinations.
  have hframe {s : Location} (hs : t.look s = some .dir) (hne : s ≠ place i) (k : String) :
      t'.look (s ++ [k]) = t.look (s ++ [k]) := by
    apply hcopied.frame
    intro name hname
    exact not_below_copy hs (by simp [hprepared.free i hi name hname]) hne
  have hfolder := hframe (hprepared.folder_isDir hrace) (hrace.folder_ne i)
  have hother {j : Fin n} (hj : j ≠ i) :=
    hframe (hprepared.place_isDir hrace j) fun heq => hj (hrace.own heq)
  refine ⟨hprepared.keeps.trans hcopied.keeps, ?sourced, fun hzero => absurd hbuilds (by omega),
    fun _ => ?built, fun _ _ => hbuilds, ?delivered, ?free⟩
  case sourced =>
    obtain ⟨⟨x, hcode⟩, y, hproject⟩ := hprepared.sourced
    exact ⟨⟨x, (hfolder _).trans hcode⟩, y, (hfolder _).trans hproject⟩
  case built =>
    intro name hname
    rw [hframe (hprepared.out_isDir hbuilds) (hrace.out_ne i)]
    exact hprepared.built hbuilds name hname
  case delivered =>
    intro j hj name hname
    by_cases hji : j = i
    · obtain ⟨content, x, y, hsource, htarget⟩ := hcopied.same name hname
      obtain ⟨z, hbuilt⟩ := hprepared.built hbuilds name hname
      rw [hbuilt, Option.some.injEq, Item.file.injEq] at hsource
      exact ⟨y, by rw [hji, htarget, hsource.1]⟩
    · rw [hother hji]
      rw [Function.update_of_ne hji] at hj
      exact hprepared.delivered j hj name hname
  case free =>
    intro j hj name hname
    by_cases hji : j = i
    · rw [hji, Function.update_self] at hj
      cases hj
    · rw [hother hji]
      rw [Function.update_of_ne hji] at hj
      exact hprepared.free j hj name hname

theorem run_copyTo (hbuilds : 0 < builds) (hi : done i = false) {b' : Bench}
    (hhere : b'.here = b.here) (hfiles : b'.files = t) :
    ∃ t', (copyTo ((c.key sdk).out c.root) (dests i)).run.run b' =
        (.ok (), { b' with files := t' }) ∧
      Prepared c.framework bytes made folder place builds (Function.update done i true) t' := by
  subst hfiles
  have hsource := hprepared.locate_out hrace
  have htarget := hprepared.locate_dest hrace i
  rw [← hhere] at hsource htarget
  obtain ⟨t', hrun, hcopied⟩ := run_copyAll isName_binaries nodup_binaries hsource
    (hprepared.out_isDir hbuilds) htarget (hprepared.place_isDir hrace i) (hrace.out_ne i)
    (fun name hname => ⟨_, hprepared.built hbuilds name hname⟩)
    (fun name hname => by simp [hprepared.free i hi name hname])
  exact ⟨t', hrun, hprepared.copy hrace hbuilds hi hcopied⟩

end Prepared

/-! ## One turn -/

/-- An installation that has not failed, and that goes by the version of the build program. -/
def Stage.Sound (c : Installer) (sdk : String) : Stage → Prop
  | .asked v => v = sdk
  | .arranged key => key = c.key sdk
  | .compiled key _ => key = c.key sdk
  | .failed _ => False
  | _ => True

/-- What was called by some installations for one key, and how many builds are among it. -/
structure Calls (c : Installer) (sdk : String) (before : List Invocation) (builds : Nat)
    (after : List Invocation) : Prop where
  recorded : ∃ new, after = before ++ new ∧
    new.count (buildCall c.dotnet c.root (c.key sdk)) = builds ∧
    ∀ i ∈ new, i = versionCall c.dotnet ∨ i = buildCall c.dotnet c.root (c.key sdk)

namespace Calls

variable {before after : List Invocation}

theorem refl (c : Installer) (sdk : String) (before : List Invocation) :
    Calls c sdk before 0 before :=
  ⟨[], by simp, rfl, nofun⟩

theorem version (hcalls : Calls c sdk before builds after) :
    Calls c sdk before builds (after ++ [versionCall c.dotnet]) := by
  have hne : versionCall c.dotnet ≠ buildCall c.dotnet c.root (c.key sdk) := by
    simp [versionCall, buildCall]
  obtain ⟨new, rfl, hcount, hall⟩ := hcalls.recorded
  refine ⟨new ++ [versionCall c.dotnet], List.append_assoc .., ?_, ?_⟩
  · rw [List.count_append, hcount, List.count_singleton, if_neg (by simpa using hne), Nat.add_zero]
  · intro i hi
    rcases List.mem_append.1 hi with hi | hi
    · exact hall i hi
    · exact .inl (List.mem_singleton.1 hi)

theorem build (hcalls : Calls c sdk before builds after) :
    Calls c sdk before (builds + 1) (after ++ [buildCall c.dotnet c.root (c.key sdk)]) := by
  obtain ⟨new, rfl, hcount, hall⟩ := hcalls.recorded
  refine ⟨new ++ [buildCall c.dotnet c.root (c.key sdk)], List.append_assoc .., ?_, ?_⟩
  · rw [List.count_append, hcount, List.count_singleton_self]
  · intro i hi
    rcases List.mem_append.1 hi with hi | hi
    · exact hall i hi
    · exact .inr (List.mem_singleton.1 hi)

end Calls

/-- The world between two turns.  The files are as they were until the first installation arranges
its build. -/
structure Going (c : Installer) (sdk : String) (b : Bench) (bytes : String → Text.Bytes)
    (made : Tree) (folder : Location) (place : Fin n → Location) (w : World n) : Prop where
  here : w.bench.here = b.here
  uncancelled : w.bench.Uncancelled
  sound : ∀ i, (w.stage i).Sound c sdk
  calls : Calls c sdk b.calls w.builds w.bench.calls
  files : (w.bench.files = b.files ∧ ∀ i, (w.stage i).rank ≤ 2) ∨
    Prepared c.framework bytes made folder place w.builds w.delivered w.bench.files

namespace Going

variable {w : World n}

theorem start (huncancelled : b.Uncancelled) :
    Going c sdk b bytes made folder place (.start b) where
  here := rfl
  uncancelled := huncancelled
  sound _ := trivial
  calls := by
    rw [World.builds_eq_zero fun _ => Nat.zero_le _]
    exact Calls.refl c sdk b.calls
  files := .inl ⟨rfl, fun _ => Nat.zero_le _⟩

variable (hgoing : Going c sdk b bytes made folder place w)
include hgoing

/-- A turn keeps the invariant if what it does for its installation and to the bench does. -/
theorem put {s : Stage} {b' : Bench} (hhere : b'.here = w.bench.here)
    (htoken : b'.token = w.bench.token) (hsound : s.Sound c sdk)
    (hcalls : Calls c sdk b.calls (w.put i s b').builds b'.calls)
    (hfiles : (b'.files = b.files ∧ s.rank ≤ 2 ∧ ∀ j, (w.stage j).rank ≤ 2) ∨
      Prepared c.framework bytes made folder place (w.put i s b').builds
        (w.put i s b').delivered b'.files) :
    Going c sdk b bytes made folder place (w.put i s b') where
  here := hhere.trans hgoing.here
  uncancelled t ht := hgoing.uncancelled t (htoken ▸ ht)
  sound j := by
    by_cases hj : j = i
    · rw [hj, World.put_stage_self]
      exact hsound
    · rw [World.put_stage_of_ne w hj]
      exact hgoing.sound j
  calls := hcalls
  files := by
    rcases hfiles with ⟨hsame, hrank, hranks⟩ | hprepared
    · refine .inl ⟨hsame, fun j => ?_⟩
      by_cases hj : j = i
      · rwa [hj, World.put_stage_self]
      · rw [World.put_stage_of_ne w hj]
        exact hranks j
    · exact .inr hprepared

/-- A turn before the sources are arranged leaves the files alone. -/
theorem put_early {s : Stage} {b' : Bench} (hhere : b'.here = w.bench.here)
    (htoken : b'.token = w.bench.token) (hfiles : b'.files = w.bench.files)
    (hsound : s.Sound c sdk) (hcalls : Calls c sdk b.calls w.builds b'.calls)
    (hbefore : (w.stage i).rank ≤ 2) (hrank : s.rank ≤ 2) :
    Going c sdk b bytes made folder place (w.put i s b') := by
  have hbuilds : (w.put i s b').builds = w.builds := by
    apply World.builds_put_of_eq
    rw [Stage.builds_of_rank (by omega), Stage.builds_of_rank (by omega)]
  have hdelivered : (w.put i s b').delivered = w.delivered := by
    apply World.delivered_put_of_eq
    rw [Stage.delivered_of_rank (by omega), Stage.delivered_of_rank (by omega)]
  refine hgoing.put hhere htoken hsound (by rwa [hbuilds]) ?_
  rw [hbuilds, hdelivered, hfiles]
  rcases hgoing.files with ⟨hsame, hranks⟩ | hprepared
  · exact .inl ⟨hsame, hrank, hranks⟩
  · exact .inr hprepared

theorem put_arranged {t' : Tree} (hstage : w.stage i = .asked sdk)
    (hprepared : Prepared c.framework bytes made folder place w.builds w.delivered t') :
    Going c sdk b bytes made folder place
      (w.put i (.arranged (c.key sdk)) (arranging t' w.bench)) := by
  have hbuilds : (w.put i (.arranged (c.key sdk)) (arranging t' w.bench)).builds = w.builds :=
    World.builds_put_of_eq (by rw [hstage]; rfl)
  have hdelivered : (w.put i (.arranged (c.key sdk)) (arranging t' w.bench)).delivered =
      w.delivered :=
    World.delivered_put_of_eq (by rw [hstage]; rfl)
  refine hgoing.put rfl rfl rfl ?_ (.inr ?_)
  · rw [hbuilds]
    exact hgoing.calls
  · rw [hbuilds, hdelivered]
    exact hprepared

theorem put_ended {origin : Origin} {t' : Tree}
    (hsame : (Stage.ended origin).builds = (w.stage i).builds)
    (hcopied : Prepared c.framework bytes made folder place w.builds
      (Function.update w.delivered i true) t') :
    Going c sdk b bytes made folder place
      (w.put i (.ended origin) { w.bench with files := t' }) := by
  have hbuilds := World.builds_put_of_eq (b := { w.bench with files := t' }) hsame
  refine hgoing.put rfl rfl trivial ?_ (.inr ?_)
  · rw [hbuilds]
    exact hgoing.calls
  · rw [hbuilds, World.delivered_put]
    exact hcopied

theorem prepared_of_rank (hrank : 3 ≤ (w.stage i).rank) :
    Prepared c.framework bytes made folder place w.builds w.delivered w.bench.files := by
  refine hgoing.files.resolve_left fun hbefore => ?_
  have hearly := hbefore.2 i
  omega

variable (hrace : Race c sdk dests b bytes made folder place)
include hrace

/-- An installation in its first turn finds nothing in the directory it delivers to. -/
theorem missing (hstage : w.stage i = .waiting) : Missing w.bench (dests i) := by
  have htree : w.bench.files.locate b.here (dests i) = .ok (place i) ∧
      w.bench.files.look (place i) = some .dir ∧
      ∀ name ∈ binaries, w.bench.files.look (place i ++ [name]) = none := by
    rcases hgoing.files with ⟨hsame, -⟩ | hprepared
    · rw [hsame]
      exact ⟨hrace.delivers i, hrace.there i, fun _ hname => hrace.free_before i hname⟩
    · refine ⟨hprepared.locate_dest hrace i, hprepared.place_isDir hrace i, hprepared.free i ?_⟩
      rw [World.delivered, hstage]
      rfl
  obtain ⟨hdest, hdir, hfree⟩ := htree
  rw [← hgoing.here] at hdest
  refine ⟨Tree.isDir_iff.2 ⟨place i, hdest, hdir⟩, ?_⟩
  rw [Bool.eq_false_iff, Ne, isIn_iff hdest hdir]
  intro hloaded
  have hthere := hloaded (program ++ ".dll") (by decide)
  rw [hfree (program ++ ".dll") (by decide)] at hthere
  cases hthere

theorem step_waiting (hstage : w.stage i = .waiting) :
    Going c sdk b bytes made folder place (c.step dests w i) := by
  have hnext : (c.next (dests i) .waiting).run.run w.bench = (.ok .asking, asking w.bench) :=
    (run_bind_ok (run_begin_of_missing (hgoing.missing hrace hstage))).trans rfl
  rw [step_eq hstage hnext]
  exact hgoing.put_early rfl rfl rfl trivial hgoing.calls (by simp [hstage, Stage.rank])
    (by simp [Stage.rank])

theorem step_asking (hstage : w.stage i = .asking) :
    Going c sdk b bytes made folder place (c.step dests w i) := by
  obtain ⟨result, hreaction, hsdk⟩ := hrace.reliable.version w.bench.calls w.bench.files
  have hnext : (c.next (dests i) .asking).run.run w.bench =
      (.ok (.asked sdk),
        { w.bench with calls := w.bench.calls ++ [versionCall c.dotnet] }) := by
    refine (run_bind_ok (run_sdkVersion hgoing.uncancelled hreaction)).trans ?_
    rw [hsdk]
    rfl
  rw [step_eq hstage hnext]
  exact hgoing.put_early rfl rfl rfl rfl hgoing.calls.version (by simp [hstage, Stage.rank])
    (by simp [Stage.rank])

/-- The first installation that comes to it writes the sources. -/
theorem step_first (hstage : w.stage i = .asked sdk) (hsame : w.bench.files = b.files)
    (hranks : ∀ j, (w.stage j).rank ≤ 2) :
    Going c sdk b bytes made folder place (c.step dests w i) := by
  have hmake := hrace.make
  have hleads := hrace.leads
  rw [← hgoing.here] at hmake hleads
  rw [← hsame] at hmake
  obtain ⟨t', hrun, hkeeps, hsourced, hframe⟩ := run_arrange_of_unsourced (dests i)
    hgoing.uncancelled hmake hleads hrace.folder_isDir hrace.noCode hrace.noProject hrace.noBuild
  have hnext : (c.next (dests i) (.asked sdk)).run.run w.bench =
      (.ok (.arranged (c.key sdk)), arranging t' w.bench) :=
    (run_bind_ok hrun).trans rfl
  rw [step_eq hstage hnext]
  -- No one has come further than this, so that nothing has been built or delivered.
  have hdelivered : w.delivered = fun _ => false :=
    funext fun j => Stage.delivered_of_rank ((hranks j).trans (by decide))
  apply hgoing.put_arranged hstage
  rw [hdelivered, World.builds_eq_zero fun j => (hranks j).trans (by decide)]
  exact hrace.prepared hkeeps hsourced hframe

/-- Before the first build has ended, the others find the sources there. -/
theorem step_second (hstage : w.stage i = .asked sdk) (hzero : w.builds = 0)
    (hprepared : Prepared c.framework bytes made folder place w.builds w.delivered w.bench.files) :
    Going c sdk b bytes made folder place (c.step dests w i) := by
  have hout := hprepared.isIn_out hrace
  have hfolder := hprepared.locate_folder hrace
  rw [← hgoing.here] at hout hfolder
  have hnext : (c.next (dests i) (.asked sdk)).run.run w.bench =
      (.ok (.arranged (c.key sdk)), arranging w.bench.files w.bench) := by
    refine (run_bind_ok (run_arrange_of_sourced hgoing.uncancelled ?_ hfolder
      (hprepared.folder_isDir hrace) hprepared.sourced)).trans rfl
    simp [hout, hzero]
  rw [step_eq hstage hnext]
  exact hgoing.put_arranged hstage hprepared

/-- After the first build, the others take the loader from the cache. -/
theorem step_third (hstage : w.stage i = .asked sdk) (hbuilds : 0 < w.builds)
    (hprepared : Prepared c.framework bytes made folder place w.builds w.delivered w.bench.files) :
    Going c sdk b bytes made folder place (c.step dests w i) := by
  have hout := hprepared.isIn_out hrace
  rw [← hgoing.here, decide_eq_true hbuilds] at hout
  have hopen : w.delivered i = false := by
    rw [World.delivered, hstage]
    rfl
  obtain ⟨t', hcopy, hcopied⟩ := hprepared.run_copyTo hrace hbuilds hopen hgoing.here rfl
  have harrange : (arrange c.root (c.key sdk) (dests i)).run.run w.bench =
      (.ok (some .cached), { w.bench with files := t' }) := by
    rw [arrange, run_bind_ok (run_get _), if_pos hout, run_bind_ok hcopy]
    rfl
  have hnext : (c.next (dests i) (.asked sdk)).run.run w.bench =
      (.ok (.ended .cached), { w.bench with files := t' }) :=
    (run_bind_ok harrange).trans rfl
  rw [step_eq hstage hnext]
  exact hgoing.put_ended (by rw [hstage]; rfl) hcopied

theorem step_asked {v : String} (hstage : w.stage i = .asked v) :
    Going c sdk b bytes made folder place (c.step dests w i) := by
  have hv := hgoing.sound i
  rw [hstage, Stage.Sound] at hv
  subst hv
  rcases hgoing.files with ⟨hsame, hranks⟩ | hprepared
  · exact hgoing.step_first hrace hstage hsame hranks
  · rcases Nat.eq_zero_or_pos w.builds with hzero | hbuilds
    · exact hgoing.step_second hrace hstage hzero hprepared
    · exact hgoing.step_third hrace hstage hbuilds hprepared

theorem step_arranged {key : Key} (hstage : w.stage i = .arranged key) :
    Going c sdk b bytes made folder place (c.step dests w i) := by
  have hkey := hgoing.sound i
  rw [hstage, Stage.Sound] at hkey
  subst hkey
  have hprepared := hgoing.prepared_of_rank (i := i) (by simp [hstage, Stage.rank])
  obtain ⟨t', result, hreaction, hbuild⟩ :=
    hrace.reliable.build w.bench.calls w.bench.files (hprepared.folder_isDir hrace)
  have hnext : (c.next (dests i) (.arranged (c.key sdk))).run.run w.bench =
      (.ok (.compiled (c.key sdk) result), { w.bench with
        files := t'
        calls := w.bench.calls ++ [buildCall c.dotnet c.root (c.key sdk)] }) := by
    refine (run_bind_ok (run_call_ok hgoing.uncancelled.not_refuses
      (congrArg Reaction.outcome hreaction))).trans ?_
    rw [called_of_reaction hreaction]
    rfl
  rw [step_eq hstage hnext]
  have hcount := w.builds_put i (.compiled (c.key sdk) result) { w.bench with
    files := t'
    calls := w.bench.calls ++ [buildCall c.dotnet c.root (c.key sdk)] }
  rw [hstage, show (Stage.arranged (c.key sdk)).builds = 0 from rfl, Nat.add_zero,
    show (Stage.compiled (c.key sdk) result).builds = 1 from rfl] at hcount
  refine hgoing.put rfl rfl rfl (by rw [hcount]; exact hgoing.calls.build) (.inr ?_)
  rw [hcount, World.delivered_put_of_eq (by rw [hstage]; rfl)]
  exact hprepared.build hrace hbuild

theorem step_compiled {key : Key} {result : ToolResult}
    (hstage : w.stage i = .compiled key result) :
    Going c sdk b bytes made folder place (c.step dests w i) := by
  have hkey := hgoing.sound i
  rw [hstage, Stage.Sound] at hkey
  subst hkey
  have hprepared := hgoing.prepared_of_rank (i := i) (by simp [hstage, Stage.rank])
  -- The build of this installation itself counts.
  have hbuilds : 0 < w.builds := by
    have hown := w.stage_builds_le i
    rw [hstage] at hown
    exact hown
  have hout := hprepared.isIn_out hrace
  rw [← hgoing.here, decide_eq_true hbuilds] at hout
  have hopen : w.delivered i = false := by
    rw [World.delivered, hstage]
    rfl
  obtain ⟨t', hcopy, hcopied⟩ := hprepared.run_copyTo hrace hbuilds hopen hgoing.here rfl
  have hnext : (c.next (dests i) (.compiled (c.key sdk) result)).run.run w.bench =
      (.ok (.ended .built), { w.bench with files := t' }) :=
    (run_bind_ok (run_collect_of_isIn hgoing.uncancelled hout hcopy result)).trans rfl
  rw [step_eq hstage hnext]
  exact hgoing.put_ended (by rw [hstage]; rfl) hcopied

/-- A turn of any installation keeps the invariant. -/
theorem step (i : Fin n) : Going c sdk b bytes made folder place (c.step dests w i) := by
  cases hstage : w.stage i with
  | waiting => exact hgoing.step_waiting hrace hstage
  | asking => exact hgoing.step_asking hrace hstage
  | asked v => exact hgoing.step_asked hrace hstage
  | arranged key => exact hgoing.step_arranged hrace hstage
  | compiled key result => exact hgoing.step_compiled hrace hstage
  | ended origin => rwa [step_of_ended hstage]
  | failed f =>
      have hsound := hgoing.sound i
      rw [hstage] at hsound
      cases hsound

/-- So do turns in any order. -/
theorem play (schedule : List (Fin n)) :
    Going c sdk b bytes made folder place (c.play dests schedule w) := by
  induction schedule generalizing w with
  | nil => exact hgoing
  | cons i schedule ih => exact ih (hgoing.step hrace i)

end Going

/-! ## All turns -/

/-- What installations that race have done after some turns. -/
structure Raced (c : Installer) (sdk : String) (dests : Fin n → Path) (b : Bench)
    (bytes : String → Text.Bytes) (schedule : List (Fin n)) (w : World n) : Prop where
  unfailed : ∀ i f, w.stage i ≠ .failed f
  /-- Five turns are all that an installation needs. -/
  ended : ∀ i, 5 ≤ schedule.count i → ∃ origin, w.stage i = .ended origin
  delivered : ∀ i origin, w.stage i = .ended origin → ∀ name ∈ binaries,
    w.bench.files.read w.bench.here ((dests i).child name) = .ok (bytes name)
  sourced : ∀ i origin, w.stage i = .ended origin →
    w.bench.files.read w.bench.here ((c.root.child (c.key sdk).name).child codeFile) =
        .ok codeContent ∧
      w.bench.files.read w.bench.here ((c.root.child (c.key sdk).name).child projectFile) =
        .ok (projectContent c.framework)
  /-- No one builds twice, and who has ended has built or comes after a build. -/
  called : ∃ new, w.bench.calls = b.calls ++ new ∧
    (∀ call ∈ new, call = versionCall c.dotnet ∨
      call = buildCall c.dotnet c.root (c.key sdk)) ∧
    new.count (buildCall c.dotnet c.root (c.key sdk)) ≤ n ∧
    ∀ i origin, w.stage i = .ended origin →
      1 ≤ new.count (buildCall c.dotnet c.root (c.key sdk))

theorem Going.raced {w : World n} {schedule : List (Fin n)}
    (hgoing : Going c sdk b bytes made folder place w)
    (hrace : Race c sdk dests b bytes made folder place)
    (hranks : ∀ i, 5 ≤ schedule.count i → 5 ≤ (w.stage i).rank) :
    Raced c sdk dests b bytes schedule w := by
  have hunfailed (i : Fin n) (f : Failure) : w.stage i ≠ .failed f := by
    intro hstage
    have hsound := hgoing.sound i
    rw [hstage] at hsound
    exact hsound
  have hprepared {i : Fin n} {origin : Origin} (hstage : w.stage i = .ended origin) :=
    hgoing.prepared_of_rank (i := i) (by simp [hstage, Stage.rank])
  have hdone {i : Fin n} {origin : Origin} (hstage : w.stage i = .ended origin) :
      w.delivered i = true := by
    rw [World.delivered, hstage]
    rfl
  refine ⟨hunfailed, fun i hcount => ?ended, fun i origin hstage name hname => ?delivered,
    fun i origin hstage => ?sourced, ?called⟩
  case ended =>
    rcases Stage.ended_or_failed (hranks i hcount) with hended | ⟨f, hfailed⟩
    · exact hended
    · exact absurd hfailed (hunfailed i f)
  case delivered =>
    have hdest := (hprepared hstage).locate_dest hrace i
    have hdir := (hprepared hstage).place_isDir hrace i
    obtain ⟨x, hfile⟩ := (hprepared hstage).delivered i (hdone hstage) name hname
    rw [hgoing.here]
    exact Tree.read_of_look (Tree.locate_child (isName_binaries name hname) hdest hdir) hfile
  case sourced =>
    have hfolder := (hprepared hstage).locate_folder hrace
    have hdir := (hprepared hstage).folder_isDir hrace
    obtain ⟨⟨x, hcode⟩, y, hproject⟩ := (hprepared hstage).sourced
    rw [hgoing.here]
    exact ⟨Tree.read_of_look (Tree.locate_child isName_codeFile hfolder hdir) hcode,
      Tree.read_of_look (Tree.locate_child isName_projectFile hfolder hdir) hproject⟩
  case called =>
    obtain ⟨new, hcalls, hcount, hall⟩ := hgoing.calls.recorded
    refine ⟨new, hcalls, hall, hcount ▸ w.builds_le, fun i origin hstage => ?_⟩
    rw [hcount]
    exact (hprepared hstage).after i (hdone hstage)

/-- Whatever the order of their turns, installations that race do not fail, and deliver what was
built. -/
theorem play_delivers (hrace : Race c sdk dests b bytes made folder place)
    (schedule : List (Fin n)) :
    Raced c sdk dests b bytes schedule (c.play dests schedule (.start b)) := by
  apply ((Going.start hrace.uncancelled).play hrace schedule).raced hrace
  intro i hcount
  have hrank := rank_play c dests schedule (.start b) i
  omega

/-! ## Races on an empty cache -/

/-- Installations on a cache that is empty at first, each into an empty directory of its own
outside of it. -/
structure RaceSetting (c : Installer) (sdk : String) (dests : Fin n → Path) (b : Bench)
    (bytes : String → Text.Bytes) (ready : Tree) (rootAt : Location) (place : Fin n → Location) :
    Prop where
  site : Site c.root b.here (fun d => ∃ i, d = place i) b.files ready rootAt
  uncancelled : b.Uncancelled
  delivers : ∀ i, b.files.locate b.here (dests i) = .ok (place i)
  empty : ∀ i name, b.files.look (place i ++ [name]) = none
  own : Function.Injective place
  reliable : c.Reliable sdk (rootAt ++ [(c.key sdk).name]) bytes

/-- Making the root puts nothing into the place of a binary. -/
theorem RaceSetting.free_ready {ready : Tree} {rootAt : Location}
    (hsetting : RaceSetting c sdk dests b bytes ready rootAt place) (i : Fin n) {name : String}
    (hname : name ∈ binaries) : ready.look (place i ++ [name]) = none := by
  have hbytes := Tree.bytesAt_of_makeDirs (l := place i ++ [name]) hsetting.site.makeRoot
  have hnoDir := hsetting.site.unblocked _ ⟨i, rfl⟩ name hname
  rw [Tree.bytesAt, Tree.bytesAt, hsetting.empty] at hbytes
  cases hlook : ready.look (place i ++ [name]) with
  | none => rfl
  | some item =>
      rw [hlook] at hbytes hnoDir
      cases item with
      | dir => exact absurd rfl hnoDir
      | file content x => cases hbytes

/-- A key whose name is one of a directory makes a race. -/
theorem RaceSetting.race {ready : Tree} {rootAt : Location}
    (hsetting : RaceSetting c sdk dests b bytes ready rootAt place)
    (hname : IsName (c.key sdk).name) :
    Race c sdk dests b bytes (ready.putDir (rootAt ++ [(c.key sdk).name]))
      (rootAt ++ [(c.key sdk).name]) place := by
  have hsite := hsetting.site
  have hfresh := hsite.empty (c.key sdk).name
  have hkeeps : Tree.KeepsDirs ready (ready.putDir (rootAt ++ [(c.key sdk).name])) :=
    Tree.KeepsDirs.put (by simp [hfresh]) _
  have hchild (k : String) := Tree.look_putDir_child hfresh k
  have hroot : ready.look rootAt = some .dir := hsite.root_isDir
  exact {
    working := hsite.working
    uncancelled := hsetting.uncancelled
    make := Tree.makeDirs_child hname hsite.working hsite.makeRoot hsite.locateRoot hfresh
    leads := Tree.locate_child hname (Tree.locate_of_keepsDirs hkeeps hsite.locateRoot)
      (hkeeps _ hroot)
    noCode := hchild codeFile
    noProject := hchild projectFile
    noBuild := hchild outFolder
    delivers := hsetting.delivers
    there := fun i => hsite.dest _ ⟨i, rfl⟩
    free := fun i name hmem => by
      rw [Tree.putDir, Tree.look_put_of_not_below (hsite.not_cache_below ⟨i, rfl⟩ _ _)]
      exact hsetting.free_ready i hmem
    own := hsetting.own
    apart := fun i => not_below_child (hsite.outside _ ⟨i, rfl⟩) _
    reliable := hsetting.reliable }

end

/-- Installations of one version with the tools of the sample. -/
def sampleInstaller (version : String) : Installer :=
  ⟨sampleTools, "dotnet", sampleRoot, "net8.0", version⟩

def sampleDests : Fin 2 → Path
  | 0 => ⟨.root, ["bin"]⟩
  | 1 => ⟨.root, ["lib"]⟩

def samplePlaces : Fin 2 → Location
  | 0 => ["bin"]
  | 1 => ["lib"]

/-- Two installations that do everything by turns, so that both of them build. -/
def sampleTurns : List (Fin 2) := [0, 1, 0, 1, 0, 1, 0, 1, 0, 1]

/-- The name of the directory of their key. -/
def sampleName (version : String) : String :=
  ((sampleInstaller version).key "8.0.100").name

theorem reliable_sample {version : String} (hparts : (Path.ofString
      (sampleRoot.child (sampleName version)).text).parts = ["cache"] ++ [sampleName version]) :
    (sampleInstaller version).Reliable "8.0.100" (["cache"] ++ [sampleName version])
      fun _ => [] where
  version calls t := ⟨{ output := "8.0.100\n" }, rfl, by decide⟩
  build calls t hdir := by
    refine ⟨stock (["cache"] ++ [sampleName version]) t, {}, ?_,
      fun m hm => look_stock_of_not_below hm t, fun name hname => ⟨_, look_stock hdir name hname⟩⟩
    rw [← hparts]
    rfl

theorem raceSetting_sample {version : String} (hparts : (Path.ofString
      (sampleRoot.child (sampleName version)).text).parts = ["cache"] ++ [sampleName version]) :
    RaceSetting (sampleInstaller version) "8.0.100" sampleDests sampleBench (fun _ => [])
      sampleBench.files ["cache"] samplePlaces where
  site := {
    working := rfl
    makeRoot := rfl
    locateRoot := rfl
    empty := fun _ => rfl
    dest := by
      rintro _ ⟨i, rfl⟩
      revert i
      exact Fin.forall_fin_two.2 ⟨rfl, rfl⟩
    outside := by
      rintro _ ⟨i, rfl⟩
      revert i
      decide
    unblocked := by
      rintro _ ⟨i, rfl⟩
      revert i
      decide }
  uncancelled := nofun
  delivers := Fin.forall_fin_two.2 ⟨rfl, rfl⟩
  empty := Fin.forall_fin_two.2 ⟨fun _ => rfl, fun _ => rfl⟩
  own := by decide
  reliable := reliable_sample hparts

theorem play_delivers_sample :
    Race (sampleInstaller "1") "8.0.100" sampleDests sampleBench (fun _ => [])
        (sampleBench.files.putDir (["cache"] ++ [sampleName "1"]))
        (["cache"] ++ [sampleName "1"]) samplePlaces ∧
      Raced (sampleInstaller "1") "8.0.100" sampleDests sampleBench (fun _ => []) sampleTurns
        ((sampleInstaller "1").play sampleDests sampleTurns (.start sampleBench)) := by
  have hsetting := raceSetting_sample (show (Path.ofString
    (sampleRoot.child (sampleName "1")).text).parts = ["cache"] ++ [sampleName "1"] by decide)
  have hrace := hsetting.race (by constructor <;> decide)
  exact ⟨hrace, play_delivers hrace sampleTurns⟩

/-- There is no directory for a version with a null character, and nothing is delivered. -/
theorem play_null :
    RaceSetting (sampleInstaller "1\x00") "8.0.100" sampleDests sampleBench (fun _ => [])
        sampleBench.files ["cache"] samplePlaces ∧
      ¬ Raced (sampleInstaller "1\x00") "8.0.100" sampleDests sampleBench (fun _ => [])
        sampleTurns ((sampleInstaller "1\x00").play sampleDests sampleTurns
          (.start sampleBench)) := by
  refine ⟨raceSetting_sample (by decide), fun hraced => ?_⟩
  obtain ⟨origin, hended⟩ := hraced.ended 0 (by decide)
  have hfails : (((sampleInstaller "1\x00").play sampleDests sampleTurns
      (.start sampleBench)).stage 0).delivered = false := by decide +kernel
  rw [hended] at hfails
  cases hfails

end JitLens.Loader
