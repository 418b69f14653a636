import JitLens.Proofs.Compiler.Unchanged
import JitLens.Proofs.Files.Listing
/-!
# The choice of a library pack

Of the directories among the library packs that are named for a system and an architecture the one
with the greatest name is chosen, whatever else there is and in whatever order it is listed.
-/

namespace JitLens

open Files

/-- A pattern for endings selects what stands in a directory under a name that ends so. -/
theorem Files.Tree.mem_select_endingPieces {t : Tree} {here : Location} {p q : Path}
    {cs : List Char} :
    q ∈ t.select here [.wild (endingPieces cs)] p ↔
      ∃ n ∈ t.namesAt here p, cs <:+ n.toList ∧ t.holds here (p.entry n) = true ∧
        q = p.entry n := by
  have hstop : t.select here [] = fun r => [r] := rfl
  rw [select_wild, hstop, List.flatMap_singleton', List.mem_filter, List.mem_map]
  constructor
  · rintro ⟨⟨n, hn, rfl⟩, hholds⟩
    obtain ⟨hmem, hfits⟩ := List.mem_filter.1 hn
    exact ⟨n, hmem, fits_endingPieces.1 hfits, hholds, rfl⟩
  · rintro ⟨n, hmem, hsuffix, hholds, rfl⟩
    exact ⟨⟨n, List.mem_filter.2 ⟨hmem, fits_endingPieces.2 hsuffix⟩, rfl⟩, hholds⟩

namespace Compiler

/-! ## The greatest name -/

theorem greatestName_eq_none_iff {ps : List Path} : greatestName ps = none ↔ ps = [] := by
  cases ps with
  | nil => simp [greatestName]
  | cons p ps =>
      rw [greatestName]
      split
      · simp
      · split <;> simp

theorem greatestName_eq_some {ps : List Path} {p : Path} (hgreatest : greatestName ps = some p) :
    p ∈ ps ∧ ∀ q ∈ ps, q.name ≤ p.name := by
  induction ps generalizing p with
  | nil => cases hgreatest
  | cons first ps ih =>
      rw [greatestName] at hgreatest
      cases hrest : greatestName ps with
      | none =>
          obtain rfl := greatestName_eq_none_iff.1 hrest
          rw [hrest, Option.some.injEq] at hgreatest
          subst hgreatest
          simp
      | some last =>
          obtain ⟨hmem, hle⟩ := ih hrest
          rw [hrest] at hgreatest
          dsimp only at hgreatest
          by_cases hlt : first.name < last.name
          · rw [if_pos hlt, Option.some.injEq] at hgreatest
            subst hgreatest
            exact ⟨List.mem_cons_of_mem _ hmem, List.forall_mem_cons.2 ⟨hlt.le, hle⟩⟩
          · rw [if_neg hlt, Option.some.injEq] at hgreatest
            subst hgreatest
            have hlast : last.name ≤ first.name := le_of_not_gt hlt
            exact ⟨List.mem_cons_self,
              List.forall_mem_cons.2 ⟨le_rfl, fun q hq => (hle q hq).trans hlast⟩⟩

theorem name_entry (p : Path) (n : String) : (p.entry n).name = n := by
  simp [Path.entry, Path.name]

section

variable {folder : Path} {P : String → Prop} {listing : List Path}

/-- The entries of a directory whose names have a property are listed, in some order. -/
def Lists (folder : Path) (P : String → Prop) (listing : List Path) : Prop :=
  ∀ q, q ∈ listing ↔ ∃ n, P n ∧ q = folder.entry n

theorem Lists.greatestName_eq_none (hlists : Lists folder P listing) (hnone : ∀ n, ¬ P n) :
    greatestName listing = none := by
  rw [greatestName_eq_none_iff, List.eq_nil_iff_forall_not_mem]
  intro q hq
  obtain ⟨n, hn, -⟩ := (hlists q).1 hq
  exact hnone n hn

theorem Lists.greatestName_eq_some (hlists : Lists folder P listing) {n : String} (hn : P n)
    (hgreatest : ∀ m, P m → m ≤ n) : greatestName listing = some (folder.entry n) := by
  have hmem := (hlists (folder.entry n)).2 ⟨n, hn, rfl⟩
  cases hfound : greatestName listing with
  | none =>
      rw [greatestName_eq_none_iff.1 hfound] at hmem
      cases hmem
  | some p =>
      obtain ⟨hp, hle⟩ := Compiler.greatestName_eq_some hfound
      obtain ⟨m, hm, rfl⟩ := (hlists p).1 hp
      have hnm := hle _ hmem
      rw [name_entry, name_entry] at hnm
      rw [le_antisymm (hgreatest m hm) hnm]

theorem Lists.exists_greatest (hlists : Lists folder P listing) {n : String} (hn : P n) :
    ∃ m, P m ∧ ∀ k, P k → k ≤ m := by
  cases hfound : greatestName listing with
  | none =>
      have hmem := (hlists (folder.entry n)).2 ⟨n, hn, rfl⟩
      rw [greatestName_eq_none_iff.1 hfound] at hmem
      cases hmem
  | some p =>
      obtain ⟨hp, hle⟩ := Compiler.greatestName_eq_some hfound
      obtain ⟨m, hm, rfl⟩ := (hlists p).1 hp
      refine ⟨m, hm, fun k hk => ?_⟩
      have hkm := hle _ ((hlists (folder.entry k)).2 ⟨k, hk, rfl⟩)
      rwa [name_entry, name_entry] at hkm

end

/-! ## What there is in a checkout -/

/-- A compiler that prints has been built for an architecture and a system. -/
def HasCompiler (t : Tree) (here : Location) (root arch os : String) : Prop :=
  ∃ c ∈ configurations,
    t.isDir here ((compilers root).child (os ++ "." ++ arch ++ "." ++ c)) = true

/-- What the name of a library pack ends in. -/
def packEnding (arch os : String) : String :=
  "-" ++ os ++ "-Release-" ++ arch

/-- A directory among the library packs is named for an architecture and a system. -/
structure IsPack (t : Tree) (here : Location) (root arch os n : String) : Prop where
  ending : (packEnding arch os).toList <:+ n.toList
  isDir : t.isDir here ((packs root).entry n) = true

section

variable {t : Tree} {here : Location} {root arch os n : String}

theorem jitFolder?_isSome_iff (hroot : Text.blankString root = false) :
    (jitFolder? t here root arch os).isSome = true ↔ HasCompiler t here root arch os := by
  rw [jitFolder?, hroot, if_neg Bool.false_ne_true, List.find?_isSome]
  simp [HasCompiler]

theorem literal_os (host : Host) : Literal host.os := by
  have hnames : host.os = Host.windows ∨ host.os = Host.osx ∨ host.os = Host.linux := by
    unfold Host.os
    split
    · exact .inl rfl
    · split
      · exact .inr (.inl rfl)
      · exact .inr (.inr rfl)
  rcases hnames with hos | hos | hos <;> rw [hos] <;> decide

theorem literal_packEnding (harch : Literal arch) (hos : Literal os) :
    Literal (packEnding arch os) := by
  have hdash : Literal "-" := by decide
  have hrelease : Literal "-Release-" := by decide
  intro c hc
  simp only [packEnding, String.toList_append, List.mem_append] at hc
  rcases hc with ((hc | hc) | hc) | hc
  · exact hdash c hc
  · exact hos c hc
  · exact hrelease c hc
  · exact harch c hc

theorem packPattern_eq (arch os : String) : packPattern arch os = "*" ++ packEnding arch os := by
  simp [packPattern, packEnding, ← String.toList_inj]

theorem IsPack.ne_dots (hpack : IsPack t here root arch os n) : n ≠ ".." := by
  rintro rfl
  have hdash : '-' ∈ (packEnding arch os).toList := by simp [packEnding]
  exact absurd (hpack.ending.subset hdash) (by decide)

/-- Where there is a pack there is a directory of packs. -/
theorem IsPack.isDir_packs (hpack : IsPack t here root arch os n) :
    t.isDir here (packs root) = true :=
  Tree.isDir_of_entry (Tree.holds_of_isDir hpack.isDir)

/-- The directories that the pattern selects are the packs. -/
theorem lists_select (t : Tree) (here : Location) (root arch os : String) :
    Lists (packs root) (IsPack t here root arch os)
      ((t.select here [.wild (endingPieces (packEnding arch os).toList)] (packs root)).filter
        (t.isDir here)) := by
  intro q
  rw [List.mem_filter, Tree.mem_select_endingPieces]
  constructor
  · rintro ⟨⟨n, -, hending, -, rfl⟩, hdir⟩
    exact ⟨n, ⟨hending, hdir⟩, rfl⟩
  · rintro ⟨n, hpack, rfl⟩
    have hholds := Tree.holds_of_isDir hpack.isDir
    exact ⟨⟨n, Tree.mem_namesAt hpack.ne_dots hholds, hpack.ending, hholds, rfl⟩, hpack.isDir⟩

end

/-! ## The choice -/

/-- What the search for a library pack comes to where `HasOne` says whether there is a compiler and
`P` which names are those of packs. -/
inductive Chosen (host : Host) (s : Settings) (arch : String) (HasOne : Prop)
    (P : String → Prop) : Except PatternError Found → Prop where
  | noCompiler (hmissing : ¬ HasOne) :
    Chosen host s arch HasOne P (.ok { error := some (noCompiler s arch host.os) })
  | noPack (hcompiler : HasOne) (hnone : ∀ n, ¬ P n) :
    Chosen host s arch HasOne P (.ok { error := some (noPack arch host.os) })
  | pack {n : String} (hcompiler : HasOne) (hn : P n) (hgreatest : ∀ m, P m → m ≤ n) :
    Chosen host s arch HasOne P (.ok { path := some ((packs s.runtimeRoot).entry n) })

section

variable {t : Tree} {here : Location} {host : Host} {s : Settings} {arch : Option String}

/-- The greatest of the listed packs, or the message that there is none. -/
def pickPack (arch os : String) (listing : List Path) : Found :=
  match greatestName listing with
  | some p => { path := some p }
  | none => { error := some (noPack arch os) }

theorem chosen_pickPack {HasOne : Prop} {P : String → Prop} {a : String} {listing : List Path}
    (hcompiler : HasOne) (hlists : Lists (packs s.runtimeRoot) P listing) :
    Chosen host s a HasOne P (.ok (pickPack a host.os listing)) := by
  unfold pickPack
  by_cases hexists : ∃ n, P n
  · obtain ⟨n, hn⟩ := hexists
    obtain ⟨m, hm, hgreatest⟩ := hlists.exists_greatest hn
    rw [hlists.greatestName_eq_some hm hgreatest]
    exact .pack hcompiler hm hgreatest
  · have hnone : ∀ n, ¬ P n := fun n hn => hexists ⟨n, hn⟩
    rw [hlists.greatestName_eq_none hnone]
    exact .noPack hcompiler hnone

/-- The same compilers and the same packs lead to the same choice. -/
theorem Chosen.unique {HasOne HasOne' : Prop} {P P' : String → Prop} {a : String}
    {r r' : Except PatternError Found} (hcompiler : HasOne ↔ HasOne') (hpacks : ∀ n, P n ↔ P' n)
    (hchosen : Chosen host s a HasOne P r) (hchosen' : Chosen host s a HasOne' P' r') :
    r = r' := by
  cases hchosen with
  | noCompiler hmissing =>
      cases hchosen' with
      | noCompiler _ => rfl
      | noPack hcompiler' _ | pack hcompiler' _ _ =>
          exact absurd (hcompiler.2 hcompiler') hmissing
  | noPack hhas hnone =>
      cases hchosen' with
      | noCompiler hmissing' => exact absurd (hcompiler.1 hhas) hmissing'
      | noPack _ _ => rfl
      | pack _ hn _ => exact absurd ((hpacks _).2 hn) (hnone _)
  | pack hhas hn hgreatest =>
      cases hchosen' with
      | noCompiler hmissing' => exact absurd (hcompiler.1 hhas) hmissing'
      | noPack _ hnone' => exact absurd ((hpacks _).1 hn) (hnone' _)
      | pack _ hn' hgreatest' =>
          rw [le_antisymm (hgreatest' _ ((hpacks _).1 hn)) (hgreatest _ ((hpacks _).2 hn'))]

theorem archOr_archOr (s : Settings) (host : Host) (arch : Option String) :
    archOr s host (some (archOr s host arch)) = archOr s host arch := by
  have htarget := archOr_targetArch s host
  cases arch with
  | none => exact htarget
  | some a =>
      have hsome : archOr s host (some a) = if a = "" then s.targetArch host else a := rfl
      by_cases ha : a = ""
      · rwa [hsome, if_pos ha]
      · rw [hsome, if_neg ha, hsome, if_neg ha]

theorem prefix_append {cs : List Char} {u v : String} (hstart : cs <+: u.toList) :
    cs <+: (u ++ v).toList := by
  rw [String.toList_append]
  exact hstart.trans (List.prefix_append _ _)

/-- The two messages differ in their second letters. -/
theorem noCompiler_ne_noPack (s : Settings) (arch os : String) :
    noCompiler s arch os ≠ noPack arch os := by
  have hcompiler : "Pa".toList <+: (noCompiler s arch os).toList := by
    unfold noCompiler
    iterate 10 apply prefix_append
    decide
  have hpack : "Pl".toList <+: (noPack arch os).toList := by
    unfold noPack
    iterate 7 apply prefix_append
    decide
  intro heq
  rw [heq] at hcompiler
  exact absurd (List.prefix_of_prefix_length_le hcompiler hpack (by decide)) (by decide)

namespace Chosen

variable {HasOne : Prop} {P : String → Prop} {a : String} {found : Except PatternError Found}

theorem found_iff (hchosen : Chosen host s a HasOne P found) :
    (∃ p, found = .ok { path := some p }) ↔ HasOne ∧ ∃ n, P n := by
  cases hchosen with
  | noCompiler hmissing => simp [hmissing]
  | noPack hcompiler hnone => simp [hnone]
  | pack hcompiler hn hgreatest => exact iff_of_true ⟨_, rfl⟩ ⟨hcompiler, _, hn⟩

theorem greatest (hchosen : Chosen host s a HasOne P found) {p : Path}
    (hfound : found = .ok { path := some p }) :
    ∃ n, p = (packs s.runtimeRoot).entry n ∧ P n ∧ ∀ m, P m → m ≤ n := by
  subst hfound
  cases hchosen with
  | pack hcompiler hn hgreatest => exact ⟨_, rfl, hn, hgreatest⟩

theorem noCompiler_iff (hchosen : Chosen host s a HasOne P found) :
    found = .ok { error := some (Compiler.noCompiler s a host.os) } ↔ ¬ HasOne := by
  have hne := noCompiler_ne_noPack s a host.os
  cases hchosen with
  | noCompiler hmissing => exact iff_of_true rfl hmissing
  | noPack hcompiler hnone => simp [hcompiler, hne.symm]
  | pack hcompiler hn hgreatest => simp [hcompiler]

theorem noPack_iff (hchosen : Chosen host s a HasOne P found) :
    found = .ok { error := some (Compiler.noPack a host.os) } ↔ HasOne ∧ ∀ n, ¬ P n := by
  have hne := noCompiler_ne_noPack s a host.os
  cases hchosen with
  | noCompiler hmissing => simp [hmissing, hne]
  | noPack hcompiler hnone => exact iff_of_true rfl ⟨hcompiler, hnone⟩
  | pack hcompiler hn hgreatest => simpa using fun _ => ⟨_, hn⟩

end Chosen

/-- Beside a compiler a pack is picked from a listing of the packs. -/
theorem findPack_eq_pickPack (harch : Literal (archOr s host arch))
    (hfolder : (jitFolder? t here s.runtimeRoot (archOr s host arch) host.os).isSome = true) :
    ∃ listing, Lists (packs s.runtimeRoot)
        (IsPack t here s.runtimeRoot (archOr s host arch) host.os) listing ∧
      findPack t here host s arch = .ok (pickPack (archOr s host arch) host.os listing) := by
  have hpattern : patternOf (packPattern (archOr s host arch) host.os) =
      .ok [.wild (endingPieces (packEnding (archOr s host arch) host.os).toList)] := by
    rw [packPattern_eq]
    exact patternOf_star (literal_packEnding harch (literal_os host))
  obtain ⟨folder, hfolder⟩ := Option.isSome_iff_exists.1 hfolder
  have hpath : ({ path := some folder } : Found).path?.isNone = false := rfl
  unfold findPack findCompiler
  dsimp only
  rw [archOr_archOr, hpattern, hfolder]
  generalize archOr s host arch = a
  dsimp only
  rw [hpath, if_neg Bool.false_ne_true]
  by_cases hdir : t.isDir here (packs s.runtimeRoot) = true
  · refine ⟨_, lists_select t here s.runtimeRoot a host.os, ?_⟩
    rw [if_pos hdir]
    simp only [bind, Except.bind]
    split <;> next hgreatest => rw [pickPack, hgreatest]
  · have hempty : Lists (packs s.runtimeRoot) (IsPack t here s.runtimeRoot a host.os) [] := by
      intro q
      refine iff_of_false List.not_mem_nil ?_
      rintro ⟨n, hpack, -⟩
      exact hdir hpack.isDir_packs
    refine ⟨_, hempty, ?_⟩
    rw [if_neg hdir]
    simp only [bind, Except.bind]
    split <;> next hgreatest => rw [pickPack, hgreatest]

theorem findPack_of_no_compiler
    (hfolder : jitFolder? t here s.runtimeRoot (archOr s host arch) host.os = none) :
    findPack t here host s arch =
      .ok { error := some (noCompiler s (archOr s host arch) host.os) } := by
  unfold findPack findCompiler
  dsimp only
  rw [archOr_archOr, hfolder]
  rfl

/-- The search for a pack comes to a choice among the packs that there are. -/
theorem chosen_findPack (hroot : Text.blankString s.runtimeRoot = false)
    (harch : Literal (archOr s host arch)) :
    Chosen host s (archOr s host arch)
      (HasCompiler t here s.runtimeRoot (archOr s host arch) host.os)
      (IsPack t here s.runtimeRoot (archOr s host arch) host.os) (findPack t here host s arch) := by
  have hcompiler : (jitFolder? t here s.runtimeRoot (archOr s host arch) host.os).isSome = true ↔
      HasCompiler t here s.runtimeRoot (archOr s host arch) host.os :=
    jitFolder?_isSome_iff hroot
  by_cases hhas : HasCompiler t here s.runtimeRoot (archOr s host arch) host.os
  · obtain ⟨listing, hlists, hfind⟩ := findPack_eq_pickPack harch (hcompiler.2 hhas)
    rw [hfind]
    exact chosen_pickPack hhas hlists
  · have hfolder := mt hcompiler.1 hhas
    rw [Bool.not_eq_true, Option.isSome_eq_false_iff, Option.isNone_iff_eq_none] at hfolder
    rw [findPack_of_no_compiler hfolder]
    exact .noCompiler hhas

/-- The choice of a library pack, by the compilers and the packs of a checkout alone. -/
structure PackChoice (t : Tree) (here : Location) (host : Host) (s : Settings)
    (arch : Option String) : Prop where
  found_iff : (∃ p, findPack t here host s arch = .ok { path := some p }) ↔
    HasCompiler t here s.runtimeRoot (archOr s host arch) host.os ∧
      ∃ n, IsPack t here s.runtimeRoot (archOr s host arch) host.os n
  greatest : ∀ p, findPack t here host s arch = .ok { path := some p } →
    ∃ n, p = (packs s.runtimeRoot).entry n ∧
      IsPack t here s.runtimeRoot (archOr s host arch) host.os n ∧
      ∀ m, IsPack t here s.runtimeRoot (archOr s host arch) host.os m → m ≤ n
  noCompiler_iff : findPack t here host s arch =
      .ok { error := some (noCompiler s (archOr s host arch) host.os) } ↔
    ¬ HasCompiler t here s.runtimeRoot (archOr s host arch) host.os
  noPack_iff : findPack t here host s arch =
      .ok { error := some (noPack (archOr s host arch) host.os) } ↔
    HasCompiler t here s.runtimeRoot (archOr s host arch) host.os ∧
      ∀ n, ¬ IsPack t here s.runtimeRoot (archOr s host arch) host.os n
  inAnyOrder : HasCompiler t here s.runtimeRoot (archOr s host arch) host.os →
    ∀ listing, Lists (packs s.runtimeRoot)
        (IsPack t here s.runtimeRoot (archOr s host arch) host.os) listing →
      findPack t here host s arch = .ok (pickPack (archOr s host arch) host.os listing)
  independent : ∀ t' here',
    (HasCompiler t here s.runtimeRoot (archOr s host arch) host.os ↔
      HasCompiler t' here' s.runtimeRoot (archOr s host arch) host.os) →
    (∀ n, IsPack t here s.runtimeRoot (archOr s host arch) host.os n ↔
      IsPack t' here' s.runtimeRoot (archOr s host arch) host.os n) →
    findPack t here host s arch = findPack t' here' host s arch

/-- The greatest pack is found where there is a compiler, and else it is told what is missing. -/
theorem findPack_choice (t : Tree) (here : Location) (host : Host) (s : Settings)
    (arch : Option String) (hroot : Text.blankString s.runtimeRoot = false)
    (harch : Literal (archOr s host arch)) : PackChoice t here host s arch where
  found_iff := (chosen_findPack hroot harch).found_iff
  greatest _ hfound := (chosen_findPack hroot harch).greatest hfound
  noCompiler_iff := (chosen_findPack hroot harch).noCompiler_iff
  noPack_iff := (chosen_findPack hroot harch).noPack_iff
  inAnyOrder hcompiler _ hlists :=
    (chosen_findPack hroot harch).unique Iff.rfl (fun _ => Iff.rfl)
      (chosen_pickPack hcompiler hlists)
  independent _ _ hcompiler hpacks :=
    (chosen_findPack hroot harch).unique hcompiler hpacks (chosen_findPack hroot harch)

/-- A checkout with a file that is named like a pack and packs for other machines. -/
def mixedCheckout : Tree :=
  ⟨[("rt", .dir [("artifacts", .dir [("bin", .dir [
    ("coreclr", .dir [("linux.x64.Checked", .file [] false), ("linux.x64.Debug", .dir [])]),
    ("runtime", .dir [
      ("net9.0-windows-Release-x64", .dir []), ("net8.0-linux-Release-x64", .dir []),
      ("net99.0-linux-Release-x64", .file [] false), ("net9.0-linux-Release-x64", .dir []),
      ("net10.0-linux-Release-x64", .dir []), ("x-linux-Release-arm64", .dir [])])])])])]⟩

/-- The file with the greatest name is passed over, and a directory with a lesser name is not. -/
theorem findPack_choice_mixed :
    let s : Settings := { runtimeRoot := "rt", arch := some "x64" }
    Text.blankString s.runtimeRoot = false ∧ Literal (archOr s {} none) ∧
      PackChoice mixedCheckout [] {} s none ∧
      ∃ n, findPack mixedCheckout [] {} s none = .ok { path := some ((packs "rt").entry n) } ∧
        "net9.0-linux-Release-x64" ≤ n ∧ n ≠ "net99.0-linux-Release-x64" := by
  intro s
  have hroot : Text.blankString s.runtimeRoot = false := by decide
  have harch : Literal (archOr s {} none) := by decide
  have hchoice := findPack_choice mixedCheckout [] {} s none hroot harch
  have hcompiler : HasCompiler mixedCheckout [] s.runtimeRoot (archOr s {} none) "linux" :=
    ⟨"Debug", by decide, by decide +kernel⟩
  have hpack : IsPack mixedCheckout [] s.runtimeRoot (archOr s {} none) "linux"
      "net9.0-linux-Release-x64" := ⟨by decide, by decide +kernel⟩
  obtain ⟨p, hfound⟩ := hchoice.found_iff.2 ⟨hcompiler, _, hpack⟩
  obtain ⟨n, rfl, hn, hgreatest⟩ := hchoice.greatest p hfound
  refine ⟨hroot, harch, hchoice, n, hfound, hgreatest _ hpack, ?_⟩
  rintro rfl
  exact absurd hn.isDir (by decide +kernel)

end

end Compiler
end JitLens
