import JitLens.Proofs.Loader.Install
/-!
# The cache of loaders

A loader is built once for each directory of the cache, and what was built is copied from then on.
The invariant of a sequence of installations ties the cache to the directories in which builds were
run: in these both binaries stand, and the others are not there.
-/

namespace JitLens.Loader

open Files JitLens.Action

/-! ## Cache and destinations -/

/-- The directory that builds of a key go to, by the name of its directory. -/
def builtAt (rootAt : Location) (folder : String) : Location :=
  rootAt ++ [folder] ++ [outFolder]

/-- A cache whose root is there, or can be made, and is empty, and destinations outside of it in
which no directory has the name of a binary. -/
structure Site (root : Path) (here : Location) (dests : Location → Prop) (t made : Tree)
    (rootAt : Location) : Prop where
  working : t.look here = some .dir
  makeRoot : t.makeDirs here root = .ok made
  locateRoot : made.locate here root = .ok rootAt
  empty : ∀ n, made.look (rootAt ++ [n]) = none
  dest : ∀ d, dests d → t.look d = some .dir
  outside : ∀ d, dests d → ¬ rootAt <+: d
  unblocked : ∀ d, dests d → ∀ name ∈ binaries, made.look (d ++ [name]) ≠ some .dir

/-- A tree in which loaders have been built in some directories of the cache. -/
structure Stocked (made : Tree) (rootAt : Location) (dests : Location → Prop)
    (folders : List String) (t : Tree) : Prop where
  keeps : Tree.KeepsDirs made t
  fresh : ∀ n, n ∉ folders → t.look (rootAt ++ [n]) = none
  cached : ∀ f ∈ folders, ∀ name ∈ binaries,
    ∃ content x, t.look (builtAt rootAt f ++ [name]) = some (.file content x)
  unblocked : ∀ d, dests d → ∀ name ∈ binaries, t.look (d ++ [name]) ≠ some .dir

/-- The cached loaders of some directories stay, and so does every loader in a destination. -/
structure Keeps (rootAt : Location) (dests : Location → Prop) (folders : List String)
    (t t' : Tree) : Prop where
  cached : ∀ f ∈ folders, ∀ name ∈ binaries,
    t'.look (builtAt rootAt f ++ [name]) = t.look (builtAt rootAt f ++ [name])
  loaded : ∀ d, dests d → Loaded d t → ∀ name ∈ binaries,
    t'.look (d ++ [name]) = t.look (d ++ [name])

/-- Both binaries in a destination have the content of those in a directory of the cache. -/
def Served (rootAt : Location) (folder : String) (d : Location) (t : Tree) : Prop :=
  ∀ name ∈ binaries, ∃ content x y, t.look (d ++ [name]) = some (.file content x) ∧
    t.look (builtAt rootAt folder ++ [name]) = some (.file content y)

/-- Outside of a directory of the cache, no directory goes away, nothing else in the cache changes,
and neither do the loaders in destinations. -/
structure WorksIn (rootAt : Location) (dests : Location → Prop) (folder : String) (t t' : Tree) :
    Prop where
  dirs : ∀ m, ¬ rootAt ++ [folder] <+: m → t.look m = some .dir → t'.look m = some .dir
  cache : ∀ m, rootAt <+: m → ¬ rootAt ++ [folder] <+: m → t'.look m = t.look m
  dests : ∀ d, dests d → ∀ name ∈ binaries, t'.look (d ++ [name]) = t.look (d ++ [name])

section

variable {root : Path} {here rootAt : Location} {dests : Location → Prop} {t t' t'' made : Tree}
  {folder : String} {folders folders' : List String} {d : Location}

theorem Served.loaded (hserved : Served rootAt folder d t) : Loaded d t := by
  intro name hname
  obtain ⟨content, x, y, hlook, -⟩ := hserved name hname
  simp [hlook]

/-! ## What stays -/

namespace Keeps

theorem refl : Keeps rootAt dests folders t t :=
  ⟨fun _ _ _ _ => rfl, fun _ _ _ _ _ => rfl⟩

theorem loaded' (h : Keeps rootAt dests folders t t') (hd : dests d) (hloaded : Loaded d t) :
    Loaded d t' := by
  intro name hname
  rw [h.loaded d hd hloaded name hname]
  exact hloaded name hname

theorem trans (h : Keeps rootAt dests folders t t') (h' : Keeps rootAt dests folders' t' t'')
    (hfolders : folders ⊆ folders') : Keeps rootAt dests folders t t'' where
  cached f hf name hname := by rw [h'.cached f (hfolders hf) name hname, h.cached f hf name hname]
  loaded d hd hloaded name hname := by
    rw [h'.loaded d hd (h.loaded' hd hloaded) name hname, h.loaded d hd hloaded name hname]

/-- What keeps all destinations but one that lacks the loader keeps every loader. -/
theorem trans_of_missing (h : Keeps rootAt dests folders t t')
    (h' : Keeps rootAt (fun d' => dests d' ∧ d' ≠ d) folders' t' t'')
    (hmissing : ¬ Loaded d t) (hfolders : folders ⊆ folders') :
    Keeps rootAt dests folders t t'' where
  cached f hf name hname := by rw [h'.cached f (hfolders hf) name hname, h.cached f hf name hname]
  loaded d' hd' hloaded name hname := by
    have hne : d' ≠ d := fun heq => hmissing (heq ▸ hloaded)
    rw [h'.loaded d' ⟨hd', hne⟩ (h.loaded' hd' hloaded) name hname, h.loaded d' hd' hloaded name hname]

theorem served (h : Keeps rootAt dests folders t t') (hfolder : folder ∈ folders) (hd : dests d)
    (hserved : Served rootAt folder d t) : Served rootAt folder d t' := by
  intro name hname
  rw [h.cached folder hfolder name hname, h.loaded d hd hserved.loaded name hname]
  exact hserved name hname

end Keeps

namespace WorksIn

theorem trans (h : WorksIn rootAt dests folder t t') (h' : WorksIn rootAt dests folder t' t'') :
    WorksIn rootAt dests folder t t'' where
  dirs m hm hdir := h'.dirs m hm (h.dirs m hm hdir)
  cache m hroot hm := by rw [h'.cache m hroot hm, h.cache m hroot hm]
  dests d hd name hname := by rw [h'.dests d hd name hname, h.dests d hd name hname]

end WorksIn

/-! ## The cache and the destinations are apart -/

namespace Site

variable (hsite : Site root here dests t made rootAt)
include hsite

theorem root_isDir : made.look rootAt = some .dir :=
  Tree.look_of_isDir (Tree.makeDirs_isDir hsite.working hsite.makeRoot).1 hsite.locateRoot

theorem keeps_made : Tree.KeepsDirs t made :=
  (Tree.makeDirs_isDir hsite.working hsite.makeRoot).2

theorem not_cache_below (hd : dests d) (folder name : String) :
    ¬ rootAt ++ [folder] <+: d ++ [name] :=
  not_below_outside (hsite.outside d hd) folder name

theorem stocked : Stocked made rootAt dests [] made where
  keeps := Tree.KeepsDirs.refl made
  fresh n _ := hsite.empty n
  cached := nofun
  unblocked := hsite.unblocked

end Site

namespace Stocked

variable (hstocked : Stocked made rootAt dests folders t)
  (hsite : Site root here dests t'' made rootAt)
include hstocked hsite

theorem root_isDir : t.look rootAt = some .dir :=
  hstocked.keeps _ hsite.root_isDir

theorem locate_root : t.locate here root = .ok rootAt :=
  Tree.locate_of_keepsDirs hstocked.keeps hsite.locateRoot

theorem working : t.look here = some .dir :=
  hstocked.keeps _ (hsite.keeps_made _ hsite.working)

theorem makeDirs_root : t.makeDirs here root = .ok t :=
  Tree.makeDirs_of_isDir
    (Tree.isDir_iff.2 ⟨rootAt, hstocked.locate_root hsite, hstocked.root_isDir hsite⟩)

theorem dest_isDir (hd : dests d) : t.look d = some .dir :=
  hstocked.keeps _ (hsite.keeps_made _ (hsite.dest d hd))

/-- What is in the cache is not below a binary in a destination. -/
theorem not_below_dest (hd : dests d) {name : String} (hname : name ∈ binaries) (m : Location) :
    ¬ d ++ [name] <+: rootAt ++ m := by
  have hroot : ¬ d ++ [name] <+: rootAt :=
    Tree.KeepsDirs.not_below (hstocked.unblocked d hd name hname) (hstocked.root_isDir hsite)
  intro hbelow
  rcases List.prefix_or_prefix_of_prefix hbelow (List.prefix_append rootAt m) with hin | hout
  · exact hroot hin
  · rcases List.prefix_concat_iff.1 hout with heq | hprefix
    · exact hroot (heq ▸ List.prefix_refl _)
    · exact hsite.outside d hd hprefix

/-! ## What a copy and a build make of the cache -/

/-- The directory that builds of a key went to. -/
theorem locate_built {key : Key} (hkey : IsName key.name) (hmem : key.name ∈ folders) :
    t.locate here (key.out root) = .ok (builtAt rootAt key.name) ∧
      t.look (builtAt rootAt key.name) = some .dir := by
  obtain ⟨content, x, hfile⟩ := hstocked.cached _ hmem (program ++ ".dll") (by decide)
  have hout : t.look (builtAt rootAt key.name) = some .dir :=
    Tree.look_of_look_append (List.cons_ne_nil _ _) hfile
  have hfolder : t.look (rootAt ++ [key.name]) = some .dir :=
    Tree.look_of_look_append (List.cons_ne_nil _ _) hout
  have hlocate := Tree.locate_child hkey (hstocked.locate_root hsite) (hstocked.root_isDir hsite)
  exact ⟨Tree.locate_child isName_outFolder hlocate hfolder, hout⟩

theorem isIn_out {key : Key} (hkey : IsName key.name) (hmem : key.name ∈ folders) :
    isIn (key.out root) t here = true := by
  obtain ⟨hlocate, hdir⟩ := hstocked.locate_built hsite hkey hmem
  rw [isIn_iff hlocate hdir]
  intro name hname
  obtain ⟨content, x, hfile⟩ := hstocked.cached _ hmem name hname
  simp [hfile]

/-- A copy to a destination keeps the cache and all other destinations. -/
theorem copied (hd : dests d)
    (hcopied : Copied binaries (builtAt rootAt folder) d t t') :
    Stocked made rootAt dests folders t' ∧
      Keeps rootAt (fun d' => dests d' ∧ d' ≠ d) folders t t' ∧ Served rootAt folder d t' := by
  have hcache (m : Location) : t'.look (rootAt ++ m) = t.look (rootAt ++ m) :=
    hcopied.frame _ fun name hname => hstocked.not_below_dest hsite hd hname m
  have hbuilt (f name : String) :
      t'.look (builtAt rootAt f ++ [name]) = t.look (builtAt rootAt f ++ [name]) := by
    simpa [builtAt] using hcache [f, outFolder, name]
  have hother {d' : Location} (hd' : dests d') (hne : d' ≠ d) (name : String) :
      t'.look (d' ++ [name]) = t.look (d' ++ [name]) :=
    hcopied.frame _ fun k hk =>
      not_below_copy (hstocked.dest_isDir hsite hd') (hstocked.unblocked d hd k hk) hne
  refine ⟨⟨hstocked.keeps.trans hcopied.keeps, ?fresh, ?cached, ?unblocked⟩, ⟨?_, ?_⟩, ?_⟩
  case fresh => exact fun n hn => (hcache [n]).trans (hstocked.fresh n hn)
  case cached =>
    intro f hf name hname
    rw [hbuilt]
    exact hstocked.cached f hf name hname
  case unblocked =>
    intro d' hd' name hname
    by_cases heq : d' = d
    · obtain ⟨content, x, y, -, hfile⟩ := hcopied.same name hname
      simp [heq, hfile]
    · rw [hother hd' heq]
      exact hstocked.unblocked d' hd' name hname
  · exact fun f _ name _ => hbuilt f name
  · exact fun d' hd' _ name _ => hother hd'.1 hd'.2 name
  · intro name hname
    obtain ⟨content, x, y, hsource, htarget⟩ := hcopied.same name hname
    exact ⟨content, y, x, htarget, (hbuilt folder name).trans hsource⟩

theorem keepsDirs_of_worksIn (hworks : WorksIn rootAt dests folder t t') :
    Tree.KeepsDirs made t' := by
  intro m hm
  have hempty : made.look (rootAt ++ [folder]) ≠ some .dir := by simp [hsite.empty]
  exact hworks.dirs m (Tree.KeepsDirs.not_below hempty hm) (hstocked.keeps m hm)

/-- Work in a directory of the cache that leaves both binaries there adds it to the stock. -/
theorem built {key : Key} (hkey : IsName key.name) (hnew : key.name ∉ folders)
    (hworks : WorksIn rootAt dests key.name t t')
    (hbinaries : ∀ name ∈ binaries, t'.isFile here ((key.out root).child name) = true) :
    Stocked made rootAt dests (key.name :: folders) t' ∧ Keeps rootAt dests folders t t' := by
  have hkeeps := hstocked.keepsDirs_of_worksIn hsite hworks
  have hold : ∀ f ∈ folders, ∀ name ∈ binaries,
      t'.look (builtAt rootAt f ++ [name]) = t.look (builtAt rootAt f ++ [name]) := by
    intro f hf name _
    have hne : key.name ≠ f := fun heq => hnew (heq ▸ hf)
    have hpath : builtAt rootAt f ++ [name] = rootAt ++ [f, outFolder, name] := by simp [builtAt]
    apply hworks.cache
    · rw [hpath]
      exact List.prefix_append _ _
    · rw [hpath, List.prefix_append_right_inj, List.prefix_cons_iff]
      simp [hne]
  have hself : ∀ name ∈ binaries,
      ∃ content x, t'.look (builtAt rootAt key.name ++ [name]) = some (.file content x) := by
    intro name hname
    obtain ⟨l, content, x, hlocate, hfile⟩ := Tree.exists_of_isFile (hbinaries name hname)
    obtain ⟨o, hout, -, rfl⟩ := Tree.locate_of_child (isName_binaries name hname) hlocate
    obtain ⟨k, hfolder, -, rfl⟩ := Tree.locate_of_child isName_outFolder hout
    obtain ⟨r, hroot, -, rfl⟩ := Tree.locate_of_child hkey hfolder
    rw [Tree.locate_of_keepsDirs hkeeps hsite.locateRoot, Except.ok.injEq] at hroot
    subst hroot
    exact ⟨content, x, hfile⟩
  refine ⟨⟨hkeeps, ?fresh, ?cached, ?unblocked⟩, hold, fun d hd _ => hworks.dests d hd⟩
  case fresh =>
    intro n hn
    rw [List.mem_cons, not_or] at hn
    rw [hworks.cache _ (List.prefix_append _ _) (not_below_sibling (Ne.symm hn.1))]
    exact hstocked.fresh n hn.2
  case cached =>
    intro f hf name hname
    rcases List.mem_cons.1 hf with rfl | hf
    · exact hself name hname
    · rw [hold f hf name hname]
      exact hstocked.cached f hf name hname
  case unblocked =>
    intro d hd name hname
    rw [hworks.dests d hd name hname]
    exact hstocked.unblocked d hd name hname

end Stocked

theorem Site.worksIn_of_arranged (hsite : Site root here dests t'' made rootAt)
    (harranged : Arranged (rootAt ++ [folder]) t t') : WorksIn rootAt dests folder t t' where
  dirs m _ hdir := harranged.keeps m hdir
  cache m _ hm := harranged.frame m hm
  dests _ hd name _ := harranged.frame _ (hsite.not_cache_below hd folder name)

end

end JitLens.Loader
