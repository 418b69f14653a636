import JitLens.Proofs.Loader.Cache
import Mathlib.Data.List.Nodup
/-!
# Sequences of installations

Installations one after the other, for any keys and destinations, run at most one build in each
directory of the cache.  One installation keeps the invariant of the cache; a sequence of them keeps
it by induction, and with it every loader that was delivered.
-/

namespace JitLens.Loader

open Files JitLens.Action

/-! ## Requests -/

/-- What an installation is asked for. -/
structure Request where
  dest : Path
  framework : String
  version : String

def Request.key (sdk : String) (r : Request) : Key :=
  ⟨r.version, r.framework, sdk⟩

/-- Installs the loader for one request after the other. -/
def installAll (tools : Tools) (dotnet : String) (root : Path) : List Request → Action (List Origin)
  | [] => pure []
  | r :: rs => do
    let origin ← install tools dotnet root r.dest r.framework r.version
    return origin :: (← installAll tools dotnet root rs)

/-- Tools that tell their version, and whose builds of loaders for some keys leave both binaries
where they belong and nothing else in the cache and in the destinations. -/
structure Serves (tools : Tools) (dotnet : String) (root : Path) (here rootAt : Location)
    (dests : Location → Prop) (sdk : String) (keys : Key → Prop) : Prop where
  version : ∀ calls t, ∃ result, tools calls (versionCall dotnet) t =
    { files := t, outcome := .ok result } ∧ Text.trimmed result.output = sdk
  build : ∀ key, keys key → ∀ calls t, t.isDir here (root.child key.name) = true →
    ∃ t' result, tools calls (buildCall dotnet root key) t =
        { files := t', outcome := .ok result } ∧
      WorksIn rootAt dests key.name t t' ∧
      ∀ name ∈ binaries, t'.isFile here ((key.out root).child name) = true

/-- A bench after installations that began with some files and calls, and that ran builds in some
directories of the cache. -/
structure Standing (root : Path) (here : Location) (dests : Location → Prop) (t made : Tree)
    (rootAt : Location) (calls : List Invocation) (folders : List String) (b : Bench) : Prop where
  here : b.here = here
  uncancelled : b.Uncancelled
  files : (folders = [] ∧ b.files = t) ∨ Stocked made rootAt dests folders b.files
  nodup : folders.Nodup
  names : ∀ f ∈ folders, IsName f
  recorded : ∃ new, b.calls = calls ++ new ∧
    new.filterMap (·.directory) = folders.reverse.map fun f => (root.child f).text

/-- What one installation does, by the directories with a build before it and after it. -/
inductive Installed (dotnet : String) (root : Path) (rootAt d : Location) (key : Key)
    (folders : List String) (r : Request) (b : Bench) : Origin → List String → Bench → Prop where
  | present (hin : isIn r.dest b.files b.here = true) :
      Installed dotnet root rootAt d key folders r b .cached folders b
  | taken (hmissing : Missing b r.dest) (hmem : key.name ∈ folders) {b' : Bench}
      (hcalls : b'.calls = b.calls ++ [versionCall dotnet])
      (hserved : Served rootAt key.name d b'.files) :
      Installed dotnet root rootAt d key folders r b .cached folders b'
  | built (hmissing : Missing b r.dest) (hnew : key.name ∉ folders) {b' : Bench}
      (hcalls : b'.calls = b.calls ++ [versionCall dotnet, buildCall dotnet root key])
      (hserved : Served rootAt key.name d b'.files) :
      Installed dotnet root rootAt d key folders r b .built (key.name :: folders) b'

section

variable {tools : Tools} {dotnet : String} {root : Path} {here rootAt : Location}
  {dests : Location → Prop} {sdk : String} {keys : Key → Prop} {t made : Tree}
  {calls : List Invocation} {folders : List String} {b : Bench} {d : Location}

theorem Installed.mem {key : Key} {r : Request} {origin : Origin} {folders' : List String}
    {b' : Bench} (h : Installed dotnet root rootAt d key folders r b origin folders' b') :
    folders ⊆ folders' := by
  cases h with
  | present _ => exact List.Subset.refl _
  | taken _ _ _ _ => exact List.Subset.refl _
  | built _ _ _ _ => exact List.subset_cons_self _ _

/-! ## One installation -/

/-- What an installation goes on with once the version is known. -/
def deliver (tools : Tools) (dotnet : String) (root dest : Path) (key : Key) : Action Origin := do
  match ← arrange root key dest with
  | some origin => return origin
  | none => collect root key dest (← Action.call tools (buildCall dotnet root key))

def versioned (dotnet : String) (b : Bench) : Bench :=
  { asking b with calls := b.calls ++ [versionCall dotnet] }

/-- The bench before a build, with some files. -/
def building (dotnet : String) (t : Tree) (b : Bench) : Bench :=
  { versioned dotnet b with
    files := t
    statuses := (versioned dotnet b).statuses ++ ["Building '" ++ program ++ "' project..."] }

/-- The bench after a build that has left some files. -/
def rebuilt (dotnet : String) (root : Path) (key : Key) (t : Tree) (b : Bench) : Bench :=
  { building dotnet t b with
    calls := b.calls ++ [versionCall dotnet, buildCall dotnet root key] }

theorem run_install_of_missing (hserves : Serves tools dotnet root here rootAt dests sdk keys)
    (hcancel : b.Uncancelled) {r : Request} (hmissing : Missing b r.dest) :
    (install tools dotnet root r.dest r.framework r.version).run.run b =
      (deliver tools dotnet root r.dest (r.key sdk)).run.run (versioned dotnet b) := by
  obtain ⟨result, hreaction, htrim⟩ := hserves.version (asking b).calls (asking b).files
  have hversion : (sdkVersion tools dotnet).run.run (asking b) =
      (.ok sdk, versioned dotnet b) := by
    rw [run_sdkVersion (by exact hcancel) hreaction, htrim]
    rfl
  rw [install, run_bind_ok (run_begin_of_missing hmissing)]
  exact run_bind_ok hversion

theorem run_call_build (hcancel : b.Uncancelled) {key : Key} {t₁ t₂ : Tree} {result : ToolResult}
    (hreaction : tools (versioned dotnet b).calls (buildCall dotnet root key) t₁ =
      { files := t₂, outcome := .ok result }) :
    (Action.call tools (buildCall dotnet root key)).run.run (building dotnet t₁ b) =
      (.ok result, rebuilt dotnet root key t₂ b) := by
  have hopen : ¬ (building dotnet t₁ b).Refuses := Bench.Uncancelled.not_refuses (by exact hcancel)
  rw [run_call_ok hopen (congrArg Reaction.outcome hreaction), called_of_reaction hreaction]
  simp [rebuilt, building, versioned, asking]

/-- A copy from a directory of the cache with a build to a destination without the loader. -/
theorem run_copyTo_of_stocked (hsite : Site root here dests t made rootAt) {key : Key}
    (hkey : IsName key.name) {dest : Path} (hhere : b.here = here)
    (hstocked : Stocked made rootAt dests folders b.files) (hmem : key.name ∈ folders)
    (hdest : t.locate here dest = .ok d) (hd : dests d) :
    ∃ t', (copyTo (key.out root) dest).run.run b = (.ok (), { b with files := t' }) ∧
      Stocked made rootAt dests folders t' ∧
      Keeps rootAt (fun d' => dests d' ∧ d' ≠ d) folders b.files t' ∧
      Served rootAt key.name d t' := by
  obtain ⟨hbuilt, hdir⟩ := hstocked.locate_built hsite hkey hmem
  have hne : builtAt rootAt key.name ≠ d := by
    rintro rfl
    exact hsite.outside _ hd (by simp [builtAt])
  subst hhere
  have hgoal := Tree.locate_of_keepsDirs (hsite.keeps_made.trans hstocked.keeps) hdest
  obtain ⟨t', hrun, hcopied⟩ := run_copyAll isName_binaries nodup_binaries hbuilt hdir hgoal
    (hstocked.dest_isDir hsite hd) hne (hstocked.cached _ hmem) (hstocked.unblocked d hd)
  exact ⟨t', hrun, hstocked.copied hsite hd hcopied⟩

namespace Standing

/-- A copy of a loader that was built before. -/
theorem taken (hstanding : Standing root here dests t made rootAt calls folders b) {t' : Tree}
    (hstocked : Stocked made rootAt dests folders t') :
    Standing root here dests t made rootAt calls folders
      { versioned dotnet b with files := t' } where
  here := hstanding.here
  uncancelled := hstanding.uncancelled
  files := .inr hstocked
  nodup := hstanding.nodup
  names := hstanding.names
  recorded := by
    obtain ⟨new, hcalls, hdirs⟩ := hstanding.recorded
    refine ⟨new ++ [versionCall dotnet], ?_, ?_⟩
    · rw [← List.append_assoc, ← hcalls]
      rfl
    · rw [List.filterMap_append, hdirs]
      exact List.append_nil _

/-- A build in a directory that had none. -/
theorem built (hstanding : Standing root here dests t made rootAt calls folders b) {key : Key}
    (hkey : IsName key.name) (hnew : key.name ∉ folders) {t' : Tree}
    (hstocked : Stocked made rootAt dests (key.name :: folders) t') :
    Standing root here dests t made rootAt calls (key.name :: folders)
      (rebuilt dotnet root key t' b) where
  here := hstanding.here
  uncancelled := hstanding.uncancelled
  files := .inr hstocked
  nodup := List.nodup_cons.2 ⟨hnew, hstanding.nodup⟩
  names f hf := by
    rcases List.mem_cons.1 hf with rfl | hf
    · exact hkey
    · exact hstanding.names f hf
  recorded := by
    obtain ⟨new, hcalls, hdirs⟩ := hstanding.recorded
    refine ⟨new ++ [versionCall dotnet, buildCall dotnet root key], ?_, ?_⟩
    · rw [← List.append_assoc, ← hcalls]
      rfl
    · simp [hdirs, versionCall, buildCall]

variable (hsite : Site root here dests t made rootAt)
  (hstanding : Standing root here dests t made rootAt calls folders b)
include hsite hstanding

theorem keeps : Tree.KeepsDirs t b.files := by
  rcases hstanding.files with ⟨-, heq⟩ | hstocked
  · rw [heq]
    exact Tree.KeepsDirs.refl t
  · exact hsite.keeps_made.trans hstocked.keeps

/-- The root of the cache can be made, which changes nothing that is there. -/
theorem exists_root : ∃ ready, b.files.makeDirs here root = .ok ready ∧
    Stocked made rootAt dests folders ready ∧ Keeps rootAt dests folders b.files ready := by
  rcases hstanding.files with ⟨hnone, heq⟩ | hstocked
  · rw [heq, hnone]
    refine ⟨made, hsite.makeRoot, hsite.stocked, nofun, fun d _ hloaded name hname => ?_⟩
    obtain ⟨i, hlook⟩ := Option.isSome_iff_exists.1 (hloaded name hname)
    rw [hlook, Tree.look_of_makeDirs hsite.makeRoot hlook]
  · exact ⟨b.files, hstocked.makeDirs_root hsite, hstocked, Keeps.refl⟩

end Standing

/-- An installation that finds the loader in the cache copies it from there. -/
theorem run_install_of_cached (hsite : Site root here dests t made rootAt)
    (hserves : Serves tools dotnet root here rootAt dests sdk keys)
    (hstanding : Standing root here dests t made rootAt calls folders b) {r : Request}
    (hkey : IsName (r.key sdk).name) (hdest : t.locate here r.dest = .ok d) (hd : dests d)
    (hmissing : Missing b r.dest) (hloaded : ¬ Loaded d b.files)
    (hmem : (r.key sdk).name ∈ folders) :
    ∃ b', (install tools dotnet root r.dest r.framework r.version).run.run b =
        (.ok .cached, b') ∧
      Standing root here dests t made rootAt calls folders b' ∧
      Keeps rootAt dests folders b.files b'.files ∧
      Installed dotnet root rootAt d (r.key sdk) folders r b .cached folders b' := by
  have hstocked : Stocked made rootAt dests folders b.files :=
    hstanding.files.resolve_left fun hnone => by simp [hnone.1] at hmem
  obtain rfl := hstanding.here
  have hin : isIn ((r.key sdk).out root) (versioned dotnet b).files (versioned dotnet b).here =
      true := hstocked.isIn_out hsite hkey hmem
  obtain ⟨t', hcopy, hstocked', hkeeps, hserved⟩ := run_copyTo_of_stocked
    (b := versioned dotnet b) hsite hkey rfl hstocked hmem hdest hd
  refine ⟨{ versioned dotnet b with files := t' }, ?_, hstanding.taken hstocked',
    Keeps.refl.trans_of_missing hkeeps hloaded (List.Subset.refl _),
    .taken hmissing hmem rfl hserved⟩
  rw [run_install_of_missing hserves hstanding.uncancelled hmissing]
  have harrange : (arrange root (r.key sdk) r.dest).run.run (versioned dotnet b) =
      (.ok (some .cached), { versioned dotnet b with files := t' }) := by
    rw [arrange, run_bind_ok (run_get _), if_pos hin, run_bind_ok hcopy]
    rfl
  exact run_bind_ok harrange

/-- The first installation for a directory of the cache runs a build there. -/
theorem run_install_of_fresh (hsite : Site root here dests t made rootAt)
    (hserves : Serves tools dotnet root here rootAt dests sdk keys)
    (hstanding : Standing root here dests t made rootAt calls folders b) {r : Request}
    (hkeys : keys (r.key sdk)) (hkey : IsName (r.key sdk).name)
    (hdest : t.locate here r.dest = .ok d) (hd : dests d)
    (hmissing : Missing b r.dest) (hloaded : ¬ Loaded d b.files)
    (hnew : (r.key sdk).name ∉ folders) :
    ∃ b', (install tools dotnet root r.dest r.framework r.version).run.run b = (.ok .built, b') ∧
      Standing root here dests t made rootAt calls ((r.key sdk).name :: folders) b' ∧
      Keeps rootAt dests folders b.files b'.files ∧
      Installed dotnet root rootAt d (r.key sdk) folders r b .built
        ((r.key sdk).name :: folders) b' := by
  obtain rfl := hstanding.here
  obtain ⟨ready, hmake, hready, hkeepsReady⟩ := hstanding.exists_root hsite
  -- The sources are written to the directory of the key.
  obtain ⟨t₁, harrange, harranged⟩ := run_arrange_of_fresh (b := versioned dotnet b) r.dest hkey
    hstanding.uncancelled (hstanding.keeps hsite _ hsite.working) hmake
    (hready.locate_root hsite) (hready.fresh _ hnew)
  -- The build leaves the binaries there.
  have hfolder : t₁.isDir b.here (root.child (r.key sdk).name) = true := by
    have hroot := Tree.locate_of_keepsDirs harranged.keeps (hready.locate_root hsite)
    have hdir := harranged.keeps _ (hready.root_isDir hsite)
    exact Tree.isDir_iff.2 ⟨_, Tree.locate_child hkey hroot hdir, harranged.dir⟩
  obtain ⟨t₂, result, hreaction, hworks, hbinaries⟩ :=
    hserves.build _ hkeys (versioned dotnet b).calls t₁ hfolder
  obtain ⟨hbuilt, hkeepsBuilt⟩ := hready.built hsite hkey hnew
    ((hsite.worksIn_of_arranged harranged).trans hworks) hbinaries
  -- They are copied from there.
  obtain ⟨t₃, hcopy, hstocked, hkeeps, hserved⟩ := run_copyTo_of_stocked
    (b := rebuilt dotnet root (r.key sdk) t₂ b)
    hsite hkey rfl hbuilt List.mem_cons_self hdest hd
  refine ⟨rebuilt dotnet root (r.key sdk) t₃ b, ?_, hstanding.built hkey hnew hstocked,
    (hkeepsReady.trans hkeepsBuilt (List.Subset.refl _)).trans_of_missing hkeeps hloaded
      (List.subset_cons_self _ _), .built hmissing hnew rfl hserved⟩
  rw [run_install_of_missing hserves hstanding.uncancelled hmissing]
  refine (run_bind_ok harrange).trans ?_
  refine (run_bind_ok (run_call_build hstanding.uncancelled hreaction)).trans ?_
  have hin : isIn ((r.key sdk).out root) (rebuilt dotnet root (r.key sdk) t₂ b).files
      (rebuilt dotnet root (r.key sdk) t₂ b).here = true :=
    hbuilt.isIn_out hsite hkey List.mem_cons_self
  exact run_collect_of_isIn (by exact hstanding.uncancelled) hin hcopy result

/-- One installation keeps the invariant. -/
theorem run_install (hsite : Site root here dests t made rootAt)
    (hserves : Serves tools dotnet root here rootAt dests sdk keys)
    (hstanding : Standing root here dests t made rootAt calls folders b) {r : Request}
    (hkeys : keys (r.key sdk)) (hkey : IsName (r.key sdk).name)
    (hdest : t.locate here r.dest = .ok d) (hd : dests d) :
    ∃ origin folders' b',
      (install tools dotnet root r.dest r.framework r.version).run.run b = (.ok origin, b') ∧
        Standing root here dests t made rootAt calls folders' b' ∧
        Keeps rootAt dests folders b.files b'.files ∧
        Installed dotnet root rootAt d (r.key sdk) folders r b origin folders' b' := by
  have hlocate := Tree.locate_of_keepsDirs (hstanding.keeps hsite) hdest
  have hdir := hstanding.keeps hsite _ (hsite.dest d hd)
  cases hin : isIn r.dest b.files b.here with
  | true =>
      refine ⟨.cached, folders, b, ?_, hstanding, Keeps.refl, .present hin⟩
      exact run_bind_ok (run_begin_of_isIn hin)
  | false =>
      have hisDir : b.files.isDir b.here r.dest = true := by
        rw [hstanding.here]
        exact Tree.isDir_iff.2 ⟨d, hlocate, hdir⟩
      have hloaded : ¬ Loaded d b.files := by
        rw [hstanding.here] at hin
        rw [← isIn_iff hlocate hdir, hin]
        exact Bool.false_ne_true
      by_cases hmem : (r.key sdk).name ∈ folders
      · obtain ⟨b', hb'⟩ := run_install_of_cached hsite hserves hstanding hkey hdest hd
          ⟨hisDir, hin⟩ hloaded hmem
        exact ⟨.cached, folders, b', hb'⟩
      · obtain ⟨b', hb'⟩ := run_install_of_fresh hsite hserves hstanding hkeys hkey hdest hd
          ⟨hisDir, hin⟩ hloaded hmem
        exact ⟨.built, _, b', hb'⟩

/-! ## All installations -/

/-- A request for one of some keys and for one of some destinations. -/
structure Allowed (here : Location) (dests : Location → Prop) (sdk : String) (keys : Key → Prop)
    (t : Tree) (r : Request) : Prop where
  key : keys (r.key sdk)
  name : IsName (r.key sdk).name
  dest : ∃ d, t.locate here r.dest = .ok d ∧ dests d

/-- A sequence of installations keeps the invariant, and what was delivered before it. -/
theorem run_installAll (hsite : Site root here dests t made rootAt)
    (hserves : Serves tools dotnet root here rootAt dests sdk keys) (rs : List Request)
    (hrs : ∀ r ∈ rs, Allowed here dests sdk keys t r)
    (hstanding : Standing root here dests t made rootAt calls folders b) :
    ∃ origins folders' b', (installAll tools dotnet root rs).run.run b = (.ok origins, b') ∧
      Standing root here dests t made rootAt calls folders' b' ∧
      Keeps rootAt dests folders b.files b'.files ∧ folders ⊆ folders' := by
  induction rs generalizing folders b with
  | nil => exact ⟨[], folders, b, rfl, hstanding, Keeps.refl, List.Subset.refl _⟩
  | cons r rs ih =>
      obtain ⟨hkey, hname, d, hdest, hd⟩ := hrs r (by simp)
      obtain ⟨origin, folders₁, b₁, hrun, hstanding₁, hkeeps, hinstalled⟩ :=
        run_install hsite hserves hstanding hkey hname hdest hd
      obtain ⟨origins, folders₂, b₂, hruns, hstanding₂, hkeeps', hsubset⟩ :=
        ih (fun r hr => hrs r (by simp [hr])) hstanding₁
      refine ⟨origin :: origins, folders₂, b₂, ?_, hstanding₂,
        hkeeps.trans hkeeps' hinstalled.mem, List.Subset.trans hinstalled.mem hsubset⟩
      rw [installAll, run_bind_ok hrun, run_bind_ok hruns]
      rfl

theorem run_installAll_append {rs rs' : List Request} {os os' : List Origin} {b₁ b₂ : Bench}
    (hfirst : (installAll tools dotnet root rs).run.run b = (.ok os, b₁))
    (hsecond : (installAll tools dotnet root rs').run.run b₁ = (.ok os', b₂)) :
    (installAll tools dotnet root (rs ++ rs')).run.run b = (.ok (os ++ os'), b₂) := by
  induction rs generalizing b os with
  | nil =>
      cases hfirst
      exact hsecond
  | cons r rs ih =>
      obtain ⟨origin, b', hrun, hrest⟩ := exists_of_run_bind_ok hfirst
      obtain ⟨origins, b'', hruns, hpure⟩ := exists_of_run_bind_ok hrest
      cases hpure
      rw [List.cons_append, installAll, run_bind_ok hrun, run_bind_ok (ih hruns)]
      rfl

end

/-- The locations that the destinations of some requests lead to. -/
def Destination (rs : List Request) (b : Bench) (d : Location) : Prop :=
  ∃ r ∈ rs, b.files.locate b.here r.dest = .ok d

/-- Requests on one cache that is empty at first, with tools that build loaders, and without a
request to cancel. -/
structure Setting (tools : Tools) (dotnet : String) (root : Path) (sdk : String)
    (rs : List Request) (b : Bench) (made : Tree) (rootAt : Location) : Prop where
  site : Site root b.here (Destination rs b) b.files made rootAt
  leads : ∀ r ∈ rs, ∃ d, b.files.locate b.here r.dest = .ok d
  uncancelled : b.Uncancelled
  parts : ∀ r ∈ rs, '/' ∉ r.version.toList ∧ '/' ∉ r.framework.toList
  named : sdk ≠ "" ∧ '/' ∉ sdk.toList
  serves : Serves tools dotnet root b.here rootAt (Destination rs b) sdk
    fun key => ∃ r ∈ rs, key = r.key sdk

/-- What one installation has done, by the benches before it, after it, and after all of them. -/
structure Delivered (dotnet : String) (root : Path) (sdk : String) (r : Request) (b : Bench)
    (origin : Origin) (b' last : Bench) : Prop where
  /-- A destination that holds the loader is left alone, and nothing is called. -/
  present : isIn r.dest b.files b.here = true → origin = .cached ∧ b' = b
  calls : ∃ new, b'.calls = b.calls ++ new ∧
    (origin = .built ↔ buildCall dotnet root (r.key sdk) ∈ new) ∧
    ∀ i ∈ new, i = versionCall dotnet ∨ i = buildCall dotnet root (r.key sdk)
  /-- Any other destination ends up with the binaries that are in the cache. -/
  copied : isIn r.dest b.files b.here = false → ∀ name ∈ binaries, ∃ content,
    last.files.read last.here (r.dest.child name) = .ok content ∧
      last.files.read last.here (((r.key sdk).out root).child name) = .ok content

/-- What a sequence of installations has done. -/
structure BuiltOnce (tools : Tools) (dotnet : String) (root : Path) (sdk : String)
    (rs : List Request) (b : Bench) (origins : List Origin) (last : Bench) : Prop where
  /-- No two builds were run in the same directory. -/
  once : ∃ new, last.calls = b.calls ++ new ∧ (new.filterMap (·.directory)).Nodup
  each : ∀ before r after, rs = before ++ r :: after → ∃ os origin os' b₁ b₂,
    origins = os ++ origin :: os' ∧
      (installAll tools dotnet root before).run.run b = (.ok os, b₁) ∧
      (install tools dotnet root r.dest r.framework r.version).run.run b₁ = (.ok origin, b₂) ∧
      Delivered dotnet root sdk r b₁ origin b₂ last

section

variable {tools : Tools} {dotnet : String} {root : Path} {here rootAt : Location}
  {dests : Location → Prop} {sdk : String} {t made : Tree} {calls : List Invocation}
  {folders folders' : List String} {b b' last : Bench} {d : Location}

theorem Installed.exists_calls {key : Key} {r : Request} {origin : Origin}
    (h : Installed dotnet root rootAt d key folders r b origin folders' b') :
    ∃ new, b'.calls = b.calls ++ new ∧ (origin = .built ↔ buildCall dotnet root key ∈ new) ∧
      ∀ i ∈ new, i = versionCall dotnet ∨ i = buildCall dotnet root key := by
  have hne : buildCall dotnet root key ≠ versionCall dotnet := by
    simp [buildCall, versionCall]
  cases h with
  | present _ => exact ⟨[], by simp, by simp, nofun⟩
  | taken _ _ hcalls _ => exact ⟨_, hcalls, by simp [hne], by simp⟩
  | built _ _ hcalls _ => exact ⟨_, hcalls, by simp, by simp⟩

/-- What was installed from the cache is read at the destination as it is in the cache. -/
theorem Standing.read_of_served (hsite : Site root here dests t made rootAt)
    (hstanding : Standing root here dests t made rootAt calls folders b) {key : Key} {dest : Path}
    (hkey : IsName key.name) (hmem : key.name ∈ folders) (hdest : t.locate here dest = .ok d)
    (hd : dests d) (hserved : Served rootAt key.name d b.files) :
    ∀ name ∈ binaries, ∃ content, b.files.read b.here (dest.child name) = .ok content ∧
      b.files.read b.here ((key.out root).child name) = .ok content := by
  intro name hname
  have hstocked := hstanding.files.resolve_left fun hnone => by simp [hnone.1] at hmem
  obtain ⟨content, x, y, hcopy, hbuilt⟩ := hserved name hname
  obtain ⟨hout, hdir⟩ := hstocked.locate_built hsite hkey hmem
  have hgoal := Tree.locate_of_keepsDirs (hstanding.keeps hsite) hdest
  have hchild := isName_binaries name hname
  rw [hstanding.here]
  exact ⟨content,
    Tree.read_of_look (Tree.locate_child hchild hgoal (hstocked.dest_isDir hsite hd)) hcopy,
    Tree.read_of_look (Tree.locate_child hchild hout hdir) hbuilt⟩

theorem Installed.delivered (hsite : Site root here dests t made rootAt)
    (hlast : Standing root here dests t made rootAt calls folders' last) {r : Request}
    {origin : Origin} {folders₁ : List String}
    (hname : IsName (r.key sdk).name) (hdest : t.locate here r.dest = .ok d) (hd : dests d)
    (hkeeps : Keeps rootAt dests folders₁ b'.files last.files) (hsubset : folders₁ ⊆ folders')
    (h : Installed dotnet root rootAt d (r.key sdk) folders r b origin folders₁ b') :
    Delivered dotnet root sdk r b origin b' last where
  present hin := by
    cases h with
    | present _ => exact ⟨rfl, rfl⟩
    | taken hmissing _ _ _ => simp [hmissing.binaries] at hin
    | built hmissing _ _ _ => simp [hmissing.binaries] at hin
  calls := h.exists_calls
  copied hout := by
    cases h with
    | present hin => simp [hin] at hout
    | taken _ hmem _ hserved =>
        exact hlast.read_of_served hsite hname (hsubset hmem) hdest hd
          (hkeeps.served hmem hd hserved)
    | built _ _ _ hserved =>
        exact hlast.read_of_served hsite hname (hsubset List.mem_cons_self) hdest hd
          (hkeeps.served List.mem_cons_self hd hserved)

/-- On a cache that is empty at first, a loader is built at most once in each directory, and
delivered from there. -/
theorem installAll_builtOnce {rs : List Request}
    (hsetting : Setting tools dotnet root sdk rs b made rootAt)
    (hnull : ∀ r ∈ rs, '\x00' ∉ (r.key sdk).name.toList) :
    ∃ origins last, (installAll tools dotnet root rs).run.run b = (.ok origins, last) ∧
      BuiltOnce tools dotnet root sdk rs b origins last := by
  have hsite := hsetting.site
  have hallowed : ∀ r ∈ rs, Allowed b.here (Destination rs b) sdk
      (fun key => ∃ r ∈ rs, key = r.key sdk) b.files r := by
    intro r hr
    obtain ⟨hversion, hframework⟩ := hsetting.parts r hr
    obtain ⟨d, hdest⟩ := hsetting.leads r hr
    exact ⟨⟨r, hr, rfl⟩, Key.isName hversion hframework hsetting.named.2 (hnull r hr),
      d, hdest, r, hr, hdest⟩
  have hstart : Standing root b.here (Destination rs b) b.files made rootAt b.calls [] b :=
    ⟨rfl, hsetting.uncancelled, .inl ⟨rfl, rfl⟩, List.nodup_nil, nofun, [], by simp, rfl⟩
  obtain ⟨origins, folders, last, hrun, hlast, -, -⟩ :=
    run_installAll hsite hsetting.serves rs hallowed hstart
  refine ⟨origins, last, hrun, ?once, ?each⟩
  case once =>
    obtain ⟨new, hcalls, hdirs⟩ := hlast.recorded
    refine ⟨new, hcalls, ?_⟩
    rw [hdirs]
    apply List.Nodup.map_on _ (List.nodup_reverse.2 hlast.nodup)
    intro f hf f' hf' htext
    exact Path.child_text_injective (hlast.names f (List.mem_reverse.1 hf))
      (hlast.names f' (List.mem_reverse.1 hf')) htext
  case each =>
    intro before r after hsplit
    -- The run is cut at the request; the runs before and after it are runs of their own.
    obtain ⟨os, folders₁, b₁, hbefore, hstanding₁, -, -⟩ := run_installAll hsite hsetting.serves
      before (fun r hr => hallowed r (by simp [hsplit, hr])) hstart
    obtain ⟨hkey, hname, d, hdest, hd⟩ := hallowed r (by simp [hsplit])
    obtain ⟨origin, folders₂, b₂, hrequest, hstanding₂, -, hinstalled⟩ :=
      run_install hsite hsetting.serves hstanding₁ hkey hname hdest hd
    obtain ⟨os', folders₃, b₃, hafter, hstanding₃, hkeeps, hsubset⟩ :=
      run_installAll hsite hsetting.serves
        after (fun r hr => hallowed r (by simp [hsplit, hr])) hstanding₂
    have hrest : (installAll tools dotnet root (r :: after)).run.run b₁ =
        (.ok (origin :: os'), b₃) := by
      rw [installAll, run_bind_ok hrequest, run_bind_ok hafter]
      rfl
    have hwhole := run_installAll_append hbefore hrest
    rw [← hsplit, hrun, Prod.mk.injEq, Except.ok.injEq] at hwhole
    obtain ⟨rfl, rfl⟩ := hwhole
    exact ⟨os, origin, os', b₁, b₂, rfl, hbefore, hrequest,
      hinstalled.delivered hsite hstanding₃ hname hdest hd hkeeps hsubset⟩

end

/-! ## A cache and a build program -/

/-- A root of a cache and two directories that the loader is needed in. -/
def sampleBench : Bench where
  files := ⟨[("cache", .dir []), ("bin", .dir []), ("lib", .dir [])]⟩
  here := []
  temporary := ⟨.root, ["tmp"]⟩

def sampleRoot : Path := ⟨.root, ["cache"]⟩

theorem locate_sampleRoot (t : Tree) : t.locate [] sampleRoot = .ok ["cache"] := by
  simp [sampleRoot, Tree.locate, Tree.walk, Tree.look_nil, holdsNull, Path.isAbsolute]

/-- Requests for both directories. -/
def sampleRequests (version : String) : List Request :=
  [⟨⟨.root, ["bin"]⟩, "net8.0", version⟩, ⟨⟨.root, ["lib"]⟩, "net8.0", version⟩]

/-- The tree after a build in a directory. -/
def stock (folder : Location) (t : Tree) : Tree :=
  binaries.foldl (fun t name => t.putFile (folder ++ [outFolder] ++ [name]) [] false)
    (t.putDir (folder ++ [outFolder]))

/-- A build program that leaves empty binaries. -/
def sampleTools : Tools := fun _ i t =>
  match i.directory with
  | none => { files := t, outcome := .ok { output := "8.0.100\n" } }
  | some folder => { files := stock (Path.ofString folder).parts t, outcome := .ok {} }

theorem look_stock_of_not_below {folder m : Location} (hm : ¬ folder ++ [outFolder] <+: m)
    (t : Tree) : (stock folder t).look m = t.look m := by
  simp only [stock, binaries, List.foldl_cons, List.foldl_nil, Tree.putFile]
  rw [Tree.look_put_of_not_below (not_below_child hm _),
    Tree.look_put_of_not_below (not_below_child hm _), Tree.putDir, Tree.look_put_of_not_below hm]

theorem look_stock {folder : Location} {t : Tree} (hdir : t.look folder = some .dir) :
    ∀ name ∈ binaries,
      (stock folder t).look (folder ++ [outFolder] ++ [name]) = some (.file [] false) := by
  have hout : (t.putDir (folder ++ [outFolder])).look (folder ++ [outFolder]) = some .dir :=
    Tree.look_put_self hdir _
  have hfirst := Tree.look_putFile_child (n := program ++ ".dll") hout [] false
  have hstill := Tree.look_of_look_append (List.cons_ne_nil _ _) hfirst
  have hsecond := Tree.look_putFile_child (n := program ++ ".runtimeconfig.json") hstill [] false
  intro name hname
  simp only [binaries, List.mem_cons, List.not_mem_nil, or_false] at hname
  rcases hname with rfl | rfl
  · exact (Tree.look_put_of_not_below (not_below_sibling (by decide)) _).trans hfirst
  · exact hsecond

/-- Builds of the program stay in the directory of their key. -/
theorem worksIn_stock {dests : Location → Prop} (houtside : ∀ d, dests d → ¬ ["cache"] <+: d)
    (folder : String) (t : Tree) :
    WorksIn ["cache"] dests folder t (stock (["cache"] ++ [folder]) t) where
  dirs _ hm hdir := (look_stock_of_not_below (not_below_child hm _) t).trans hdir
  cache _ _ hm := look_stock_of_not_below (not_below_child hm _) t
  dests d hd _ _ :=
    look_stock_of_not_below (not_below_child (not_below_outside (houtside d hd) _ _) _) t

theorem serves_sampleTools {dests : Location → Prop} (houtside : ∀ d, dests d → ¬ ["cache"] <+: d)
    {keys : Key → Prop} (hkeys : ∀ key, keys key → IsName key.name ∧
      (Path.ofString (sampleRoot.child key.name).text).parts = ["cache"] ++ [key.name]) :
    Serves sampleTools "dotnet" sampleRoot [] ["cache"] dests "8.0.100" keys where
  version calls t := ⟨{ output := "8.0.100\n" }, rfl, by decide⟩
  build key hkey calls t hdir := by
    obtain ⟨hname, hparts⟩ := hkeys key hkey
    obtain ⟨l, hlocate, hlook⟩ := Tree.isDir_iff.1 hdir
    obtain ⟨m, hroot, -, rfl⟩ := Tree.locate_of_child hname hlocate
    rw [locate_sampleRoot, Except.ok.injEq] at hroot
    subst hroot
    refine ⟨stock (["cache"] ++ [key.name]) t, {}, ?_, worksIn_stock houtside key.name t, ?_⟩
    · simp only [sampleTools, buildCall, hparts]
    · intro name hmem
      have hfile := look_stock hlook name hmem
      have hout := Tree.look_of_look_append (List.cons_ne_nil _ _) hfile
      have hfolder := Tree.look_of_look_append (List.cons_ne_nil _ _) hout
      have hbase := Tree.look_of_look_append (List.cons_ne_nil _ _) hfolder
      have hkey := Tree.locate_child hname (locate_sampleRoot _) hbase
      have hthere := Tree.locate_child (isName_binaries name hmem)
        (Tree.locate_child isName_outFolder hkey hfolder) hout
      simp only [Tree.isFile, Tree.content?, Tree.lookAt, Key.out, hthere, hfile, Option.isSome_some]

theorem destination_sample {version : String} {d : Location}
    (hd : Destination (sampleRequests version) sampleBench d) : d = ["bin"] ∨ d = ["lib"] := by
  obtain ⟨r, hr, hlocate⟩ := hd
  simp only [sampleRequests, List.mem_cons, List.not_mem_nil, or_false] at hr
  rcases hr with rfl | rfl
  · exact .inl (Except.ok.inj hlocate).symm
  · exact .inr (Except.ok.inj hlocate).symm

theorem site_sample (version : String) :
    Site sampleRoot [] (Destination (sampleRequests version) sampleBench) sampleBench.files
      sampleBench.files ["cache"] where
  working := rfl
  makeRoot := rfl
  locateRoot := rfl
  empty _ := rfl
  dest d hd := by
    rcases destination_sample hd with rfl | rfl <;> rfl
  outside d hd := by
    rcases destination_sample hd with rfl | rfl <;> decide
  unblocked d hd := by
    rcases destination_sample hd with rfl | rfl <;> decide

theorem setting_sample (version : String) (hversion : '/' ∉ version.toList)
    (hserves : Serves sampleTools "dotnet" sampleRoot [] ["cache"]
      (Destination (sampleRequests version) sampleBench) "8.0.100"
      fun key => ∃ r ∈ sampleRequests version, key = r.key "8.0.100") :
    Setting sampleTools "dotnet" sampleRoot "8.0.100" (sampleRequests version) sampleBench
      sampleBench.files ["cache"] where
  site := site_sample version
  leads r hr := by
    simp only [sampleRequests, List.mem_cons, List.not_mem_nil, or_false] at hr
    rcases hr with rfl | rfl
    · exact ⟨["bin"], rfl⟩
    · exact ⟨["lib"], rfl⟩
  uncancelled := nofun
  parts r hr := by
    simp only [sampleRequests, List.mem_cons, List.not_mem_nil, or_false] at hr
    have hframework : '/' ∉ "net8.0".toList := by decide
    rcases hr with rfl | rfl <;> exact ⟨hversion, hframework⟩
  named := by decide
  serves := hserves

theorem key_sample {version : String} {key : Key}
    (hkey : ∃ r ∈ sampleRequests version, key = r.key "8.0.100") :
    key = ⟨version, "net8.0", "8.0.100"⟩ := by
  obtain ⟨r, hr, rfl⟩ := hkey
  simp only [sampleRequests, List.mem_cons, List.not_mem_nil, or_false] at hr
  rcases hr with rfl | rfl <;> rfl

theorem outside_sample {version : String} :
    ∀ d, Destination (sampleRequests version) sampleBench d → ¬ ["cache"] <+: d :=
  (site_sample version).outside

theorem installAll_builtOnce_sample :
    Setting sampleTools "dotnet" sampleRoot "8.0.100" (sampleRequests "1") sampleBench
        sampleBench.files ["cache"] ∧
      (∀ r ∈ sampleRequests "1", '\x00' ∉ (r.key "8.0.100").name.toList) ∧
      ∃ origins last, (installAll sampleTools "dotnet" sampleRoot (sampleRequests "1")).run.run
          sampleBench = (.ok origins, last) ∧
        BuiltOnce sampleTools "dotnet" sampleRoot "8.0.100" (sampleRequests "1") sampleBench
          origins last := by
  have hsetting := setting_sample "1" (by decide)
    (serves_sampleTools outside_sample fun key hkey => by
      rw [key_sample hkey]
      exact ⟨by constructor <;> decide, by decide⟩)
  have hnull : ∀ r ∈ sampleRequests "1", '\x00' ∉ (r.key "8.0.100").name.toList := by decide
  exact ⟨hsetting, hnull, installAll_builtOnce hsetting hnull⟩

/-- A version with a null character is in no name of a file: no directory can be made for it. -/
theorem installAll_null :
    Setting sampleTools "dotnet" sampleRoot "8.0.100" (sampleRequests "1\x00") sampleBench
        sampleBench.files ["cache"] ∧
      ¬ ∃ origins last, (installAll sampleTools "dotnet" sampleRoot
            (sampleRequests "1\x00")).run.run sampleBench = (.ok origins, last) ∧
        BuiltOnce sampleTools "dotnet" sampleRoot "8.0.100" (sampleRequests "1\x00") sampleBench
          origins last := by
  constructor
  · refine setting_sample "1\x00" (by decide) ⟨fun calls t => ⟨{ output := "8.0.100\n" }, rfl,
      by decide⟩, fun key hkey calls t hdir => ?_⟩
    -- No directory of that name is there for a build to be run in.
    have hnull : t.isDir [] (sampleRoot.child (Key.name ⟨"1\x00", "net8.0", "8.0.100"⟩)) = false := by
      have hparts : (sampleRoot.child
          (Key.name ⟨"1\x00", "net8.0", "8.0.100"⟩)).parts.any holdsNull = true := by decide
      simp [Tree.isDir, Tree.lookAt, Tree.locate, hparts]
    rw [key_sample hkey, hnull] at hdir
    cases hdir
  · rintro ⟨origins, last, hrun, -⟩
    have hfails : ((installAll sampleTools "dotnet" sampleRoot
        (sampleRequests "1\x00")).run.run sampleBench).1.isOk = false := by decide +kernel
    rw [hrun] at hfails
    cases hfails

end JitLens.Loader
