import JitLens.Files.Copy
import JitLens.Proofs.Files.Access
/-!
# Names in a directory

A text that names a file leads from the path of a directory to what has that name in it.  A file
can be copied there, and a directory can be made there together with those on the way to it.
-/

namespace JitLens.Files

/-- A text that names a file: no separator, no null character, and no dots that lead elsewhere. -/
structure IsName (s : String) : Prop where
  nonempty : s ≠ ""
  notDot : s ≠ "."
  notDots : s ≠ ".."
  noSeparator : '/' ∉ s.toList
  noNull : '\x00' ∉ s.toList

theorem Path.anchorOf_of_head {cs : List Char} (hhead : cs.head? ≠ some '/') :
    anchorOf cs = .relative := by
  cases cs with
  | nil => rfl
  | cons c cs =>
      have hc : c ≠ '/' := fun heq => hhead (congrArg some heq)
      unfold anchorOf
      split
      · next heq => exact absurd (List.cons.inj heq).1 hc
      · next heq => exact absurd (List.cons.inj heq).1 hc
      · next heq => exact absurd (List.cons.inj heq).1 hc
      · rfl

/-- A text without separators is the one component of the path that it is read as. -/
theorem Path.ofString_of_notMem {s : String} (hne : s ≠ "") (hdot : s ≠ ".")
    (hsep : '/' ∉ s.toList) : ofString s = ⟨.relative, [s]⟩ := by
  have hanchor : anchorOf s.toList = .relative :=
    anchorOf_of_head fun hhead => hsep (List.mem_of_mem_head? hhead)
  have hparts : partsOf s.toList = [s] := by
    rw [partsOf, Text.splitOn_of_not_mem hsep]
    simp [hne, hdot]
  rw [ofString, hanchor, hparts]

namespace IsName

variable {s : String}

theorem holdsNull_eq_false (hs : IsName s) : holdsNull s = false := by
  simpa [holdsNull] using hs.noNull

theorem ofString_eq (hs : IsName s) : Path.ofString s = ⟨.relative, [s]⟩ :=
  Path.ofString_of_notMem hs.nonempty hs.notDot hs.noSeparator

theorem child_eq (hs : IsName s) (p : Path) : p.child s = ⟨p.anchor, p.parts ++ [s]⟩ := by
  rw [Path.child, hs.ofString_eq]
  rfl

theorem name_child (hs : IsName s) (p : Path) : (p.child s).name = s := by
  simp [hs.child_eq, Path.name]

theorem parent_child (hs : IsName s) (p : Path) : (p.child s).parent = p := by
  simp [hs.child_eq, Path.parent]

end IsName

/-! ## Paths as texts -/

theorem splitOn_intercalate {names : List (List Char)} (hne : names ≠ [])
    (hnames : ∀ cs ∈ names, '/' ∉ cs) : Text.splitOn '/' (['/'].intercalate names) = names := by
  induction names with
  | nil => exact absurd rfl hne
  | cons cs names ih =>
      have hcs : '/' ∉ cs := hnames cs (by simp)
      cases names with
      | nil => simpa [List.intercalate] using Text.splitOn_of_not_mem hcs
      | cons ds names =>
          have hrest := ih (by simp) fun es hes => hnames es (by simp [hes])
          rw [List.intercalate_cons_of_ne_nil (by simp), List.append_assoc, List.singleton_append,
            Text.splitOn_append hcs, hrest]

/-- A component of a path: not empty, no single dot, and without separators. -/
structure IsPart (s : String) : Prop where
  nonempty : s ≠ ""
  notDot : s ≠ "."
  noSeparator : '/' ∉ s.toList

namespace Path

theorem partsOf_anchor (anchor : Anchor) (cs : List Char) :
    partsOf (anchor.text.toList ++ cs) = partsOf cs := by
  have hslash (ds : List Char) : partsOf ('/' :: ds) = partsOf ds := by
    simp [partsOf, Text.splitOn]
  cases anchor with
  | relative => rfl
  | root => exact hslash cs
  | doubleRoot => exact (hslash ('/' :: cs)).trans (hslash cs)

theorem anchorOf_anchor (anchor : Anchor) {cs : List Char} (hhead : cs.head? ≠ some '/') :
    anchorOf (anchor.text.toList ++ cs) = anchor := by
  have hroot : Anchor.root.text.toList = ['/'] := by decide
  have hdouble : Anchor.doubleRoot.text.toList = ['/', '/'] := by decide
  cases anchor with
  | relative => exact anchorOf_of_head hhead
  | root =>
      rw [hroot]
      cases cs with
      | nil => rfl
      | cons c cs => simp_all [anchorOf]
  | doubleRoot =>
      rw [hdouble]
      cases cs with
      | nil => rfl
      | cons c cs => simp_all [anchorOf]

theorem partsOf_intercalate {names : List String} (hnames : ∀ n ∈ names, IsPart n) :
    partsOf (['/'].intercalate (names.map String.toList)) = names := by
  cases names with
  | nil => rfl
  | cons n names =>
      have hsplit : Text.splitOn '/' (['/'].intercalate ((n :: names).map String.toList)) =
          (n :: names).map String.toList := by
        apply splitOn_intercalate (by simp)
        intro cs hcs
        obtain ⟨m, hm, rfl⟩ := List.mem_map.1 hcs
        exact (hnames m hm).noSeparator
      have hkept : (n :: names).filter (fun p => p != "" && p != ".") = n :: names := by
        rw [List.filter_eq_self]
        intro m hm
        simp [(hnames m hm).nonempty, (hnames m hm).notDot]
      rw [partsOf, hsplit]
      simpa only [List.map_map, Function.comp_def, String.ofList_toList, List.map_id'] using hkept

theorem head_intercalate {names : List String} (hnames : ∀ n ∈ names, IsPart n) :
    (['/'].intercalate (names.map String.toList)).head? ≠ some '/' := by
  cases names with
  | nil => simp [List.intercalate]
  | cons n names =>
      have hn : IsPart n := hnames n List.mem_cons_self
      obtain ⟨c, cs, hlist⟩ : ∃ c cs, n.toList = c :: cs :=
        List.exists_cons_of_ne_nil fun hnil => hn.nonempty (String.toList_eq_nil_iff.1 hnil)
      have hc : c ≠ '/' := by
        rintro rfl
        exact hn.noSeparator (by simp [hlist])
      cases names with
      | nil => simp [List.intercalate, hlist, hc]
      | cons m names => simp [List.intercalate_cons_of_ne_nil, hlist, hc]

/-- A path whose components can be those of a path is read back from its text. -/
theorem ofString_text {p : Path} (hp : ∀ n ∈ p.parts, IsPart n) : ofString p.text = p := by
  by_cases hempty : p = ⟨.relative, []⟩
  · rw [hempty]
    decide
  · have htext : p.text.toList =
        p.anchor.text.toList ++ ['/'].intercalate (p.parts.map String.toList) := by
      rw [text]
      split
      · next hanchor hparts =>
        exact absurd (by rw [← hanchor, ← hparts]) hempty
      · have hslash : "/".toList = ['/'] := by decide
        rw [String.toList_append, String.toList_intercalate, hslash]
    rw [ofString, htext, partsOf_anchor, partsOf_intercalate hp,
      anchorOf_anchor _ (head_intercalate hp)]

end Path

theorem Path.text_child (root : Path) :
    ∃ before, ∀ s, IsName s → (root.child s).text.toList = before ++ s.toList := by
  have hlast (parts : List (List Char)) : ∃ before : List Char, ∀ s : List Char,
      ['/'].intercalate (parts ++ [s]) = before ++ s := by
    induction parts with
    | nil => exact ⟨[], fun s => by simp [List.intercalate]⟩
    | cons p parts ih =>
        obtain ⟨before, hbefore⟩ := ih
        refine ⟨p ++ ['/'] ++ before, fun s => ?_⟩
        rw [List.cons_append, List.intercalate_cons_of_ne_nil (by simp), hbefore,
          List.append_assoc _ before]
  obtain ⟨before, hbefore⟩ := hlast (root.parts.map String.toList)
  refine ⟨root.anchor.text.toList ++ before, fun s hs => ?_⟩
  rw [hs.child_eq, text]
  split
  · next hnil => exact absurd hnil (by simp)
  · rw [String.toList_append, String.toList_intercalate, List.map_append, List.map_singleton,
      List.append_assoc]
    exact congrArg _ (hbefore s.toList)

theorem Path.child_text_injective {root : Path} {s s' : String} (hs : IsName s) (hs' : IsName s')
    (htext : (root.child s).text = (root.child s').text) : s = s' := by
  obtain ⟨before, hbefore⟩ := text_child root
  have hlist := congrArg String.toList htext
  rw [hbefore s hs, hbefore s' hs', List.append_cancel_left_eq] at hlist
  exact String.toList_injective hlist

namespace Tree

variable {t t' : Tree} {here l : Location} {p : Path} {s : String}

/-! ## Where a name leads -/

theorem locate_child (hs : IsName s) (hp : t.locate here p = .ok l)
    (hdir : t.look l = some .dir) : t.locate here (p.child s) = .ok (l ++ [s]) := by
  have hchild := locate_of_parent (p := p.child s)
    (by rw [hs.name_child]; exact hs.nonempty) (by rw [hs.name_child]; exact hs.notDots)
    (by rw [hs.name_child]; exact hs.holdsNull_eq_false) (by rw [hs.parent_child]; exact hp) hdir
  rwa [hs.name_child] at hchild

theorem locate_of_child (hs : IsName s) (hchild : t.locate here (p.child s) = .ok l) :
    ∃ m, t.locate here p = .ok m ∧ t.look m = some .dir ∧ l = m ++ [s] := by
  have hparent := locate_parent (p := p.child s)
    (by rw [hs.name_child]; exact hs.nonempty) (by rw [hs.name_child]; exact hs.notDots) hchild
  rwa [hs.name_child, hs.parent_child] at hparent

theorem holds_child (hs : IsName s) (hp : t.locate here p = .ok l)
    (hdir : t.look l = some .dir) : t.holds here (p.child s) = (t.look (l ++ [s])).isSome := by
  rw [holds, lookAt, locate_child hs hp hdir]

theorem exists_of_holds (hholds : t.holds here p = true) :
    ∃ l, t.locate here p = .ok l ∧ (t.look l).isSome = true := by
  rw [holds, lookAt] at hholds
  cases hlocate : t.locate here p with
  | error e => simp [hlocate] at hholds
  | ok l => exact ⟨l, rfl, by simpa [hlocate] using hholds⟩

theorem exists_of_isFile (hfile : t.isFile here p = true) :
    ∃ l content executable, t.locate here p = .ok l ∧
      t.look l = some (.file content executable) := by
  rw [isFile, content?, lookAt] at hfile
  cases hlocate : t.locate here p with
  | error e => simp [hlocate] at hfile
  | ok l =>
      cases hlook : t.look l with
      | none => simp [hlocate, hlook] at hfile
      | some i =>
          cases i with
          | dir => simp [hlocate, hlook] at hfile
          | file content executable => exact ⟨l, content, executable, rfl, hlook⟩

/-! ## Copies -/

/-- A file whose content is copied keeps its own permission at the target. -/
theorem exists_copyFile {source target : Path} {origin goal : Location} {content : Text.Bytes}
    {executable : Bool} (hsource : t.locate here source = .ok origin)
    (horigin : t.look origin = some (.file content executable))
    (htarget : t.locate here target = .ok goal) (hgoal : t.look goal ≠ some .dir)
    (hne : origin ≠ goal) :
    ∃ bit, t.copyFile here source target = .ok (t.putFile goal content bit) := by
  obtain ⟨t', hwrite⟩ := write_of_look htarget hgoal content
  obtain ⟨goal', bit, hlocate, -, rfl⟩ := write_eq_ok hwrite
  rw [htarget, Except.ok.injEq] at hlocate
  subst hlocate
  refine ⟨bit, ?_⟩
  unfold copyFile
  simp only [read_of_look hsource horigin, hsource, htarget, if_neg hne, hwrite]
  rfl

/-- A copy puts the content of the source where the target leads. -/
theorem copyFile_eq_ok {source target : Path} (hcopy : t.copyFile here source target = .ok t') :
    ∃ origin goal content x y, t.locate here source = .ok origin ∧
      t.look origin = some (.file content x) ∧ t.locate here target = .ok goal ∧
      t.look goal ≠ some .dir ∧ t' = t.putFile goal content y := by
  unfold copyFile at hcopy
  split at hcopy
  · cases hcopy
  · next content hread =>
    obtain ⟨origin, x, hsource, horigin⟩ := read_eq_ok hread
    have hwrite : (t.write here target content).mapError CopyRefusal.file = .ok t' := by
      split at hcopy
      · split at hcopy
        · cases hcopy
        · exact hcopy
      · exact hcopy
    cases hresult : t.write here target content with
    | error e =>
        rw [hresult] at hwrite
        cases hwrite
    | ok u =>
        rw [hresult] at hwrite
        cases hwrite
        obtain ⟨goal, y, htarget, hgoal, hput⟩ := write_eq_ok hresult
        exact ⟨origin, goal, content, x, y, hsource, horigin, htarget, hgoal, hput⟩

/-! ## Directories on the way -/

theorem locate_of_makeDir_error {e : FileError} (hmake : t.makeDir here p = .error e)
    (he : e.errno = .noEntry) : t.locate here p = .error .noEntry := by
  unfold makeDir at hmake
  cases hlocate : t.locate here p with
  | error errno =>
      rw [hlocate] at hmake
      cases hmake
      exact congrArg Except.error he
  | ok l =>
      cases hlook : t.look l with
      | none => simp [hlocate, hlook] at hmake
      | some i =>
          simp only [hlocate, hlook] at hmake
          cases hmake
          cases he

/-- Something new that is put where nothing stands leaves all else where it is. -/
theorem look_put_of_none {m : Location} {i : Item} (hnone : t.look l = none)
    (hlook : t.look m = some i) (e : Entry) : (t.put l e).look m = some i := by
  have hbelow : ¬ l <+: m := by
    rintro ⟨k, rfl⟩
    cases k with
    | nil => simp [hnone] at hlook
    | cons n k =>
        rw [look_of_look_append (by simp) hlook] at hnone
        cases hnone
  rw [look_put_of_not_below hbelow, hlook]

theorem look_of_makeDir {m : Location} {i : Item} (hmake : t.makeDir here p = .ok t')
    (hlook : t.look m = some i) : t'.look m = some i := by
  obtain ⟨l, -, hnone, rfl⟩ := makeDir_eq_ok hmake
  exact look_put_of_none hnone hlook _

/-- What stands somewhere stays there when directories are made. -/
theorem look_of_makeDirs {m : Location} {i : Item} (hmake : t.makeDirs here p = .ok t')
    (hlook : t.look m = some i) : t'.look m = some i :=
  related_of_makeDirsFrom (R := fun t t' => t.look m = some i → t'.look m = some i)
    (fun _ => id) (fun h h' hlook => h' (h hlook)) (fun _ => look_of_makeDir) hmake hlook

/-- A directory that can be made, but is not there, is one whose names lead nowhere. -/
theorem missing_of_makeDirs {made : Tree} (hhere : t.look here = some .dir)
    (hmake : t.makeDirs here p = .ok made) (hdir : t.isDir here p = false) :
    t.locate here p = .error .noEntry ∨ ∃ l, t.locate here p = .ok l ∧ t.look l = none := by
  obtain ⟨anchor, parts⟩ := p
  rcases List.eq_nil_or_concat parts with rfl | ⟨ns, n, rfl⟩
  · -- The working directory and the root are always there.
    have hthere := (makeDirs_isDir hhere (show t.makeDirs here ⟨anchor, []⟩ = .ok t from rfl)).1
    rw [hthere] at hdir
    cases hdir
  · rw [makeDirs, List.concat_eq_append, List.reverse_append, List.reverse_singleton,
      List.singleton_append, makeDirsFrom] at hmake
    simp only [List.reverse_cons, List.reverse_reverse, ← List.concat_eq_append] at hmake
    split at hmake
    · next u hfirst =>
      obtain ⟨l, hlocate, hlook, -⟩ := makeDir_eq_ok hfirst
      exact .inr ⟨l, hlocate, hlook⟩
    · next e hfirst =>
      split at hmake
      · next hmissing => exact .inl (locate_of_makeDir_error hfirst hmissing)
      · rw [hdir] at hmake
        cases hmake

theorem locate_child_of_missing (hs : IsName s)
    (hmissing : t.locate here p = .error .noEntry ∨
      ∃ l, t.locate here p = .ok l ∧ t.look l = none) :
    t.locate here (p.child s) = .error .noEntry := by
  have hsplit (hnull : p.parts.any holdsNull = false) : t.locate here (p.child s) =
      (t.walk (if p.isAbsolute then [] else here) p.parts).bind fun l => t.walk l [s] := by
    have hnulls : (p.parts ++ [s]).any holdsNull = false := by
      rw [List.any_append, hnull]
      simp [hs.holdsNull_eq_false]
    rw [hs.child_eq, locate, if_neg (by simp [hnulls]), walk_append]
    rfl
  rcases hmissing with hnowhere | ⟨l, hlocate, hlook⟩
  · unfold locate at hnowhere
    split at hnowhere
    · cases hnowhere
    · next hnull =>
      rw [hsplit (by simpa using hnull), hnowhere]
      rfl
  · obtain ⟨hnull, hwalk⟩ := locate_eq_ok hlocate
    rw [hsplit hnull, hwalk]
    simp [Except.bind, walk, hlook]

/-- To make a directory in another one is to make that one first. -/
theorem makeDirs_child {made : Tree} (hs : IsName s) (hhere : t.look here = some .dir)
    (hmake : t.makeDirs here p = .ok made) (hp : made.locate here p = .ok l)
    (hnone : made.look (l ++ [s]) = none) :
    t.makeDirs here (p.child s) = .ok (made.putDir (l ++ [s])) := by
  have hdir : made.look l = some .dir := look_of_isDir (makeDirs_isDir hhere hmake).1 hp
  have hlast : made.makeDir here (p.child s) = .ok (made.putDir (l ++ [s])) := by
    simp only [makeDir, locate_child hs hp hdir, hnone]
  have hunfold : t.makeDirs here (p.child s) =
      makeDirsFrom here p.anchor (s :: p.parts.reverse) t := by
    rw [hs.child_eq, makeDirs, List.reverse_append]
    rfl
  have hpath : (⟨p.anchor, (s :: p.parts.reverse).reverse⟩ : Path) = p.child s := by
    rw [hs.child_eq, List.reverse_cons, List.reverse_reverse]
  rw [hunfold, makeDirsFrom]
  simp only [hpath]
  cases hthere : t.isDir here p with
  | true =>
      rw [makeDirs_of_isDir hthere, Except.ok.injEq] at hmake
      rw [hmake, hlast]
  | false =>
      have hmissing := locate_child_of_missing hs (missing_of_makeDirs hhere hmake hthere)
      have hfirst : t.makeDir here (p.child s) = .error ⟨.noEntry, (p.child s).text, none⟩ := by
        simp only [makeDir, hmissing]
      have hbefore : makeDirsFrom here p.anchor p.parts.reverse t = .ok made := hmake
      simp only [hfirst, hbefore, hlast, if_true]

end Tree
end JitLens.Files
