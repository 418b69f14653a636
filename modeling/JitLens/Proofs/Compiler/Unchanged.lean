import JitLens.Proofs.Compiler.Search
import Mathlib.Data.List.Basic
/-!
# A checkout that stays as it is

What is found in a checkout depends on the paths alone that are looked at on the way.  As long as
nothing changes there, the same is found.
-/

namespace JitLens

open Files

namespace Files.Tree

variable {t t' : Tree} {here : Location}

/-- Whatever can be seen at a path is the same in both trees. -/
structure AlikeAt (t t' : Tree) (here : Location) (p : Path) : Prop where
  look : t'.lookAt here p = t.lookAt here p
  names : t'.namesAt here p = t.namesAt here p
  dirs : t'.dirsBelow here p = t.dirsBelow here p

theorem AlikeAt.isDir {p : Path} (halike : AlikeAt t t' here p) :
    t'.isDir here p = t.isDir here p := by
  rw [Tree.isDir, Tree.isDir, halike.look]

theorem AlikeAt.holds {p : Path} (halike : AlikeAt t t' here p) :
    t'.holds here p = t.holds here p := by
  rw [Tree.holds, Tree.holds, halike.look]

/-- The paths that are looked at in the search for paths that fit a pattern. -/
inductive Visits (t : Tree) (here : Location) : List PatternPart → Path → Path → Prop where
  | start (parts : List PatternPart) (p : Path) : Visits t here parts p p
  | exactly {name : String} {rest : List PatternPart} {p q : Path}
      (hrest : Visits t here rest ⟨p.anchor, p.parts ++ [name]⟩ q) :
    Visits t here (.exactly name :: rest) p q
  | wild {pieces : List Piece} {rest : List PatternPart} {p q : Path} {n : String}
      (hn : n ∈ t.namesAt here p) (hrest : Visits t here rest ⟨p.anchor, p.parts ++ [n]⟩ q) :
    Visits t here (.wild pieces :: rest) p q
  | anyDirs {rest : List PatternPart} {p d q : Path} (hd : d ∈ t.dirsBelow here p)
      (hrest : Visits t here rest d q) : Visits t here (.anyDirs :: rest) p q

/-- Whether a path stands for a step of the search; the last step may come to a file. -/
def stands (t : Tree) (here : Location) (rest : List PatternPart) (q : Path) : Bool :=
  if rest.isEmpty then t.holds here q else t.isDir here q

theorem AlikeAt.stands {q : Path} (halike : AlikeAt t t' here q) (rest : List PatternPart) :
    t'.stands here rest q = t.stands here rest q := by
  rw [Tree.stands, Tree.stands, halike.holds, halike.isDir]

theorem select_exactly (t : Tree) (here : Location) (name : String) (rest : List PatternPart)
    (p : Path) : t.select here (.exactly name :: rest) p =
      if t.stands here rest ⟨p.anchor, p.parts ++ [name]⟩ then
        t.select here rest ⟨p.anchor, p.parts ++ [name]⟩ else [] := rfl

theorem select_wild (t : Tree) (here : Location) (pieces : List Piece) (rest : List PatternPart)
    (p : Path) : t.select here (.wild pieces :: rest) p =
      ((((t.namesAt here p).filter fun n => fits pieces n.toList).map fun n =>
        (⟨p.anchor, p.parts ++ [n]⟩ : Path)).filter (t.stands here rest)).flatMap
          (t.select here rest) := rfl

theorem select_anyDirs (t : Tree) (here : Location) (rest : List PatternPart) (p : Path) :
    t.select here (.anyDirs :: rest) p =
      ((t.dirsBelow here p).flatMap (t.select here rest)).eraseDups := rfl

/-- The search depends on the paths alone that are looked at. -/
theorem select_congr {parts : List PatternPart} {p : Path}
    (halike : ∀ q, Visits t here parts p q → AlikeAt t t' here q) :
    t'.select here parts p = t.select here parts p := by
  induction parts generalizing p with
  | nil => rfl
  | cons part rest ih =>
      have hp := halike p (.start _ p)
      cases part with
      | onlyDir => rfl
      | exactly name =>
          have hnext := halike ⟨p.anchor, p.parts ++ [name]⟩ (.exactly (.start _ _))
          rw [select_exactly, select_exactly, hnext.stands, ih fun q hq => halike q (.exactly hq)]
      | wild pieces =>
          have hvisited : ∀ q ∈ ((t.namesAt here p).filter fun n => fits pieces n.toList).map
              fun n => (⟨p.anchor, p.parts ++ [n]⟩ : Path),
              t'.stands here rest q = t.stands here rest q ∧
                t'.select here rest q = t.select here rest q := by
            intro q hq
            obtain ⟨n, hn, rfl⟩ := List.mem_map.1 hq
            have hname := (List.mem_filter.1 hn).1
            exact ⟨(halike _ (.wild hname (.start _ _))).stands rest,
              ih fun q hq => halike q (.wild hname hq)⟩
          rw [select_wild, select_wild, hp.names,
            List.filter_congr fun q hq => (hvisited q hq).1]
          exact List.flatMap_congr fun q hq => (hvisited q (List.mem_filter.1 hq).1).2
      | anyDirs =>
          rw [select_anyDirs, select_anyDirs, hp.dirs,
            List.flatMap_congr fun d hd => ih fun q hq => halike q (.anyDirs hd hq)]

theorem visits_of_mem_select {parts : List PatternPart} {p q : Path}
    (hq : q ∈ t.select here parts p) : Visits t here parts p q := by
  induction parts generalizing p with
  | nil =>
      obtain rfl := List.mem_singleton.1 hq
      exact .start _ _
  | cons part rest ih =>
      cases part with
      | onlyDir =>
          obtain rfl := List.mem_singleton.1 hq
          exact .start _ _
      | exactly name =>
          rw [select_exactly] at hq
          cases hstands : t.stands here rest ⟨p.anchor, p.parts ++ [name]⟩ with
          | false => simp [hstands] at hq
          | true =>
              rw [hstands, if_pos rfl] at hq
              exact .exactly (ih hq)
      | wild pieces =>
          rw [select_wild] at hq
          obtain ⟨r, hr, hq⟩ := List.mem_flatMap.1 hq
          obtain ⟨n, hn, rfl⟩ := List.mem_map.1 (List.mem_filter.1 hr).1
          exact .wild (List.mem_filter.1 hn).1 (ih hq)
      | anyDirs =>
          rw [select_anyDirs, List.mem_eraseDups] at hq
          obtain ⟨d, hd, hq⟩ := List.mem_flatMap.1 hq
          exact .anyDirs hd (ih hq)

end Files.Tree

namespace Compiler

variable {host : Host} {s : Settings} {b b' : Bench} {m : String}

/-- The paths that are looked at for the compiler and for the library pack. -/
inductive Consults (t : Tree) (here : Location) (host : Host) (s : Settings) : Path → Prop where
  | compiler {c : String} (hc : c ∈ configurations) :
    Consults t here host s
      ((compilers s.runtimeRoot).child (host.os ++ "." ++ s.targetArch host ++ "." ++ c))
  | packs : Consults t here host s (packs s.runtimeRoot)
  | pack {pattern : List PatternPart} {q : Path}
      (hpattern : patternOf (packPattern (s.targetArch host) host.os) = .ok pattern)
      (hvisits : t.Visits here pattern (Compiler.packs s.runtimeRoot) q) :
    Consults t here host s q

/-- Nothing has changed in a checkout, as far as it is looked at. -/
structure Unchanged (host : Host) (s : Settings) (b b' : Bench) : Prop where
  here : b'.here = b.here
  alike : ∀ q, Consults b.files b.here host s q → b.files.AlikeAt b'.files b.here q

theorem Unchanged.jitFolder? (hsame : Unchanged host s b b') :
    jitFolder? b'.files b'.here s.runtimeRoot (s.targetArch host) host.os =
      jitFolder? b.files b.here s.runtimeRoot (s.targetArch host) host.os := by
  have hdirs : ∀ p ∈ configurations.map fun c =>
      (compilers s.runtimeRoot).child (host.os ++ "." ++ s.targetArch host ++ "." ++ c),
      b'.files.isDir b.here p = b.files.isDir b.here p := by
    intro p hp
    obtain ⟨c, hc, rfl⟩ := List.mem_map.1 hp
    exact (hsame.alike _ (.compiler hc)).isDir
  rw [hsame.here]
  unfold Compiler.jitFolder?
  split
  · rfl
  · rw [← List.head?_filter, ← List.head?_filter, List.filter_congr hdirs]

/-- The search for the compiler comes to the same. -/
theorem Unchanged.findCompiler (hsame : Unchanged host s b b') (arch : Option String)
    (harch : archOr s host arch = s.targetArch host) :
    findCompiler b'.files b'.here host s arch = findCompiler b.files b.here host s arch := by
  unfold Compiler.findCompiler
  rw [harch]
  dsimp only
  rw [hsame.jitFolder?]

/-- The search for the library pack comes to the same. -/
theorem Unchanged.findPack (hsame : Unchanged host s b b') :
    findPack b'.files b'.here host s none = findPack b.files b.here host s none := by
  have harch : archOr s host none = s.targetArch host := rfl
  have hcompiler := hsame.findCompiler (some (s.targetArch host)) (archOr_targetArch s host)
  have hpacks := (hsame.alike _ .packs).isDir
  unfold Compiler.findPack
  rw [harch]
  dsimp only
  rw [hcompiler, hsame.here, hpacks]
  cases hpattern : patternOf (packPattern (s.targetArch host) host.os) with
  | error e => rfl
  | ok pattern =>
      have hselect := Tree.select_congr fun q hq => hsame.alike q (.pack hpattern hq)
      have hfilter : (b.files.select b.here pattern (packs s.runtimeRoot)).filter
          (b'.files.isDir b.here) =
          (b.files.select b.here pattern (packs s.runtimeRoot)).filter (b.files.isDir b.here) :=
        List.filter_congr fun q hq =>
          (hsame.alike q (.pack hpattern (Tree.visits_of_mem_select hq))).isDir
      simp only [bind, Except.bind, hselect, hfilter]

theorem Unchanged.lacksPack_iff (hsame : Unchanged host s b b') :
    LacksPack host s b' m ↔ LacksPack host s b m := by
  rw [LacksPack, LacksPack, hsame.findPack]

theorem Unchanged.lacksCompiler_iff (hsame : Unchanged host s b b') :
    LacksCompiler host s b' m ↔ LacksCompiler host s b m := by
  rw [LacksCompiler, LacksCompiler, hsame.findCompiler none rfl]

end Compiler
end JitLens
