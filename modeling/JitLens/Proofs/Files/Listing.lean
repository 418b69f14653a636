import JitLens.Files.Pattern
import JitLens.Proofs.Files.Child
import Mathlib.Data.List.Infix
import Mathlib.Data.String.Basic
/-!
# Listings of directories

A listing has the names of what stands in a directory, each once and in increasing order, in
whatever order the directory has them.  A pattern that starts with a star and goes on with a text
selects the names that end with the text.
-/

namespace JitLens.Files

/-- Whatever is sorted and then rid of what comes again increases. -/
theorem pairwise_lt_eraseDups {names : List String} (hsorted : names.Pairwise (· ≤ ·)) :
    names.eraseDups.Pairwise (· < ·) := by
  induction hlength : names.length using Nat.strong_induction_on generalizing names with
  | _ k ih =>
      cases names with
      | nil => simp
      | cons n names =>
          obtain ⟨hfirst, hrest⟩ := List.pairwise_cons.1 hsorted
          have hshorter := List.length_filter_le (fun m => !m == n) names
          rw [List.eraseDups_cons, List.pairwise_cons]
          refine ⟨fun m hm => ?_, ih _ ?_ (hrest.filter _) rfl⟩
          · rw [List.mem_eraseDups, List.mem_filter] at hm
            exact lt_of_le_of_ne (hfirst m hm.1) (Ne.symm (by simpa using hm.2))
          · rw [← hlength, List.length_cons]
            omega

namespace Tree

variable {t : Tree} {here l : Location} {p : Path} {n : String}

theorem pairwise_names (t : Tree) (l : Location) : (t.names l).Pairwise (· < ·) := by
  unfold names
  split
  · next children _ =>
    apply pairwise_lt_eraseDups
    have hsorted := @List.pairwise_mergeSort String (fun a b => decide (a ≤ b))
      (fun a b c hab hbc => by
        rw [decide_eq_true_iff] at *
        exact hab.trans hbc)
      (fun a b => by simpa using le_total a b) (children.map Prod.fst)
    simpa using hsorted
  · exact List.Pairwise.nil

theorem mem_names : n ∈ t.names l ↔ (t.look (l ++ [n])).isSome = true := by
  have hentry : t.root.get? (l ++ [n]) = (t.entry? l).bind fun e => e.get? [n] :=
    Entry.get?_append _ _ _
  rw [look, entry?, hentry, names]
  cases t.entry? l with
  | none => simp
  | some e =>
      cases e with
      | file content executable => simp [Entry.get?]
      | dir children =>
          rw [List.mem_eraseDups, List.mem_mergeSort, Option.bind_some, Entry.get?]
          have hkey : ¬ Table.get? children n = none ↔ ¬ n ∉ children.map Prod.fst :=
            not_iff_not.2 Table.get?_eq_none_iff
          rw [not_not] at hkey
          rw [← hkey, Entry.child?]
          cases Table.get? children n <;> simp

/-- The way to a name in a directory leads through the directory. -/
theorem locate_of_entry (hholds : t.holds here (p.entry n) = true) :
    ∃ m, t.locate here p = .ok m ∧ t.look m = some .dir ∧
      (t.look (if n = ".." then m.dropLast else m ++ [n])).isSome = true := by
  obtain ⟨l, hlocate, hlook⟩ := exists_of_holds hholds
  obtain ⟨hnull, hwalk⟩ := locate_eq_ok hlocate
  obtain ⟨m, hm, hdir, rfl⟩ := walk_concat hwalk
  rw [Path.entry, List.any_append, Bool.or_eq_false_iff] at hnull
  exact ⟨m, locate_of_walk hnull.1 hm, hdir, hlook⟩

theorem isDir_of_entry (hholds : t.holds here (p.entry n) = true) : t.isDir here p = true := by
  obtain ⟨m, hlocate, hdir, -⟩ := locate_of_entry hholds
  exact isDir_iff.2 ⟨m, hlocate, hdir⟩

/-- What stands under a name at a path is in the listing of the directory there. -/
theorem mem_namesAt (hn : n ≠ "..") (hholds : t.holds here (p.entry n) = true) :
    n ∈ t.namesAt here p := by
  obtain ⟨m, hlocate, -, hlook⟩ := locate_of_entry hholds
  rw [if_neg hn] at hlook
  rw [namesAt, hlocate]
  exact mem_names.2 hlook

/-- A directory has no more names than entries. -/
theorem exists_names (t : Tree) (here : Location) (p : Path) :
    ∃ names : List String, names.length = t.sizeAt here p ∧ ∀ n ∈ t.namesAt here p, n ∈ names := by
  unfold sizeAt namesAt
  cases t.locate here p with
  | error e => exact ⟨[], rfl, fun _ hn => hn⟩
  | ok l =>
      dsimp only
      unfold size names
      cases t.entry? l with
      | none => exact ⟨[], rfl, fun _ hn => hn⟩
      | some e =>
          cases e with
          | file content executable => exact ⟨[], rfl, fun _ hn => hn⟩
          | dir children =>
              refine ⟨children.map Prod.fst, List.length_map _, fun n hn => ?_⟩
              rwa [List.mem_eraseDups, List.mem_mergeSort] at hn

theorem holds_of_isDir (hdir : t.isDir here p = true) : t.holds here p = true := by
  obtain ⟨l, hlocate, hlook⟩ := isDir_iff.1 hdir
  exact holds_of_look hlocate hlook

theorem holds_of_isFile (hfile : t.isFile here p = true) : t.holds here p = true := by
  obtain ⟨l, content, executable, hlocate, hlook⟩ := exists_of_isFile hfile
  exact holds_of_look hlocate hlook

end Tree

/-! ## Patterns -/

/-- A text that stands for nothing but itself in a pattern for names. -/
def Literal (s : String) : Prop :=
  ∀ c ∈ s.toList, c ∉ ['*', '?', '[', '/']

instance (s : String) : Decidable (Literal s) :=
  List.decidableBAll (fun c => c ∉ ['*', '?', '[', '/']) s.toList

/-- The pieces of a pattern for the names that end with a text. -/
def endingPieces (cs : List Char) : List Piece :=
  .run :: cs.map .char

theorem mem_endings {α : Type} {cs ds : List α} : ds ∈ endings cs ↔ ds <:+ cs := by
  induction cs with
  | nil => simp [endings]
  | cons c cs ih => rw [endings, List.mem_cons, ih, List.suffix_cons_iff]

theorem fits_char {cs ds : List Char} : fits (cs.map .char) ds = true ↔ ds = cs := by
  induction cs generalizing ds with
  | nil => simp [fits]
  | cons c cs ih =>
      cases ds with
      | nil => simp [fits]
      | cons d ds => simp [fits, Piece.accepts, ih]

theorem fits_endingPieces {cs ds : List Char} :
    fits (endingPieces cs) ds = true ↔ cs <:+ ds := by
  rw [endingPieces, fits, List.any_eq_true]
  constructor
  · rintro ⟨es, hending, hfits⟩
    rw [← fits_char.1 hfits]
    exact mem_endings.1 hending
  · exact fun hsuffix => ⟨cs, mem_endings.2 hsuffix, fits_char.2 rfl⟩

theorem piecesFrom_literal {cs : List Char} (hcs : ∀ c ∈ cs, c ∉ ['*', '?', '[', '/']) :
    piecesFrom 0 cs = cs.map .char := by
  induction cs with
  | nil => rfl
  | cons c cs ih =>
      have hc := hcs c List.mem_cons_self
      have hrest := ih fun d hd => hcs d (List.mem_cons_of_mem _ hd)
      simp only [List.mem_cons, List.not_mem_nil, or_false, not_or] at hc
      rw [piecesFrom, hrest, List.map_cons]
      · exact fun h => hc.1 h
      · exact fun h => hc.2.1 h
      · exact fun h => hc.2.2.1 h

theorem patternOf_star {s : String} (hs : Literal s) :
    patternOf ("*" ++ s) = .ok [.wild (endingPieces s.toList)] := by
  have hlist : ("*" ++ s).toList = '*' :: s.toList := by simp
  have hstar : '*' ∉ s.toList := fun hmem => hs _ hmem (by decide)
  have hslash : '/' ∉ s.toList := fun hmem => hs _ hmem (by decide)
  have hne (u : String) (hu : u.toList.head? ≠ some '*') : "*" ++ s ≠ u := by
    rintro rfl
    exact hu (by simp)
  have hparts : (Path.ofString ("*" ++ s)).parts = ["*" ++ s] := by
    rw [Path.ofString_of_notMem (hne "" (by decide)) (hne "." (by decide))]
    simpa [hlist] using hslash
  have hpart : partOf ("*" ++ s) = .ok (.wild (endingPieces s.toList)) := by
    have hstars : "*" ++ s ≠ "**" := by
      intro heq
      have htail := congrArg String.toList heq
      rw [hlist] at htail
      simp_all
    have hpair : ¬ Text.contains ['*', '*'] ('*' :: s.toList) = true := by
      rw [Text.contains_iff]
      intro hfound
      rcases List.infix_cons_iff.1 hfound with hstart | hrest
      · exact hstar ((List.cons_prefix_cons.1 hstart).2.subset List.mem_cons_self)
      · exact hstar (hrest.subset List.mem_cons_self)
    rw [partOf, if_neg hstars, hlist, if_neg hpair, pieces, piecesFrom, piecesFrom_literal hs]
    simp [endingPieces]
  have hlast : ("*" ++ s).toList.getLast? ≠ some '/' := by
    rw [hlist]
    exact fun hslash' => hslash (by simpa using List.mem_of_getLast? hslash')
  rw [patternOf, hparts, List.mapM_cons, hpart, List.mapM_nil]
  exact congrArg Except.ok (if_neg hlast)

end JitLens.Files
