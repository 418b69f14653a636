import JitLens.Proofs.Files.Tree
/-!
# Paths in a tree that changes

Where a path leads does not change while directories stay.  A file that was written or moved is
read back, and a directory that was made is there.
-/

namespace JitLens.Files

/-- The location that a name leads to from a location. -/
def Location.enter (l : Location) (n : String) : Location :=
  if n = ".." then l.dropLast else l ++ [n]

namespace Path

theorem parts_eq {p : Path} (hname : p.name ≠ "") : p.parts = p.parent.parts ++ [p.name] := by
  rcases List.eq_nil_or_concat p.parts with hnil | ⟨ns, n, hparts⟩
  · simp [name, hnil] at hname
  · rw [List.concat_eq_append] at hparts
    simp [parent, name, hparts]

theorem isAbsolute_parent (p : Path) : p.parent.isAbsolute = p.isAbsolute := rfl

end Path

namespace Tree

/-! ## Walks -/

theorem walk_append (t : Tree) (l : Location) (ns ms : List String) :
    t.walk l (ns ++ ms) = (t.walk l ns).bind fun l => t.walk l ms := by
  induction ns generalizing l with
  | nil => rfl
  | cons n ns ih =>
      simp only [List.cons_append, walk]
      cases t.look l with
      | none => rfl
      | some i =>
          cases i with
          | file content executable => rfl
          | dir => exact ih _

theorem walk_concat {t : Tree} {l l' : Location} {ns : List String} {n : String}
    (hwalk : t.walk l (ns ++ [n]) = .ok l') :
    ∃ m, t.walk l ns = .ok m ∧ t.look m = some .dir ∧
      l' = if n = ".." then m.dropLast else m ++ [n] := by
  rw [walk_append] at hwalk
  cases hm : t.walk l ns with
  | error e => simp [hm, Except.bind] at hwalk
  | ok m =>
      refine ⟨m, rfl, ?_⟩
      simp only [hm, Except.bind, walk] at hwalk
      cases hlook : t.look m with
      | none => simp [hlook] at hwalk
      | some i =>
          cases i with
          | file content executable => simp [hlook] at hwalk
          | dir =>
              simp only [hlook, Except.ok.injEq] at hwalk
              exact ⟨rfl, hwalk.symm⟩

theorem walk_of_keepsDirs {t t' : Tree} (hkeeps : KeepsDirs t t') {l l' : Location}
    {ns : List String} (hwalk : t.walk l ns = .ok l') : t'.walk l ns = .ok l' := by
  induction ns generalizing l with
  | nil => exact hwalk
  | cons n ns ih =>
      rw [walk] at hwalk ⊢
      cases hlook : t.look l with
      | none => simp [hlook] at hwalk
      | some i =>
          cases i with
          | file content executable => simp [hlook] at hwalk
          | dir =>
              simp only [hlook] at hwalk
              rw [hkeeps l hlook]
              exact ih hwalk

/-- A walk that gets through enters one name after the other. -/
theorem eq_of_walk {t : Tree} {l m : Location} {ns : List String} (hwalk : t.walk l ns = .ok m) :
    m = ns.foldl Location.enter l := by
  induction ns generalizing l with
  | nil =>
      rw [walk, Except.ok.injEq] at hwalk
      exact hwalk.symm
  | cons n ns ih =>
      rw [walk] at hwalk
      cases hlook : t.look l with
      | none => simp [hlook] at hwalk
      | some i =>
          cases i with
          | file content executable => simp [hlook] at hwalk
          | dir =>
              simp only [hlook] at hwalk
              exact ih hwalk

theorem reverse_foldl_enter (l : Location) (ns : List String) :
    (ns.foldl Location.enter l).reverse =
      ns.foldl (fun done p => if p = ".." then done.drop 1 else p :: done) l.reverse := by
  induction ns generalizing l with
  | nil => rfl
  | cons n ns ih =>
      rw [List.foldl_cons, List.foldl_cons, ih, Location.enter]
      by_cases hn : n = ".."
      · rw [if_pos hn, if_pos hn]
        simp
      · rw [if_neg hn, if_neg hn]
        simp

/-- A walk folds the names behind those that it starts from. -/
theorem reverse_of_walk {t : Tree} {l l' : Location} {ns : List String}
    (hwalk : t.walk l ns = .ok l') :
    l'.reverse = ns.foldl (fun done p => if p = ".." then done.drop 1 else p :: done) l.reverse := by
  rw [eq_of_walk hwalk, reverse_foldl_enter]

theorem mem_foldl_enter {l : Location} {ns : List String} {k : String}
    (hk : k ∈ ns.foldl Location.enter l) : k ∈ l ∨ k ∈ ns ∧ k ≠ ".." := by
  induction ns generalizing l with
  | nil => exact .inl hk
  | cons n ns ih =>
      rcases ih hk with hmem | ⟨hmem, hne⟩
      · unfold Location.enter at hmem
        split at hmem
        · exact .inl (List.dropLast_subset _ hmem)
        · next hn =>
          rcases List.mem_append.1 hmem with hl | hlast
          · exact .inl hl
          · rw [List.mem_singleton] at hlast
            subst hlast
            exact .inr ⟨by simp, hn⟩
      · exact .inr ⟨List.mem_cons_of_mem _ hmem, hne⟩

theorem mem_of_walk {t : Tree} {l l' : Location} {ns : List String} (hwalk : t.walk l ns = .ok l')
    {k : String} (hk : k ∈ l') : k ∈ l ∨ k ∈ ns ∧ k ≠ ".." := by
  rw [eq_of_walk hwalk] at hk
  exact mem_foldl_enter hk

theorem look_dropLast {t : Tree} {l : Location} (hl : t.look l = some .dir) :
    t.look l.dropLast = some .dir := by
  rcases List.eq_nil_or_concat l with rfl | ⟨m, n, rfl⟩
  · exact hl
  · rw [List.concat_eq_append] at hl ⊢
    rw [List.dropLast_concat]
    exact look_of_look_append (by simp) hl

/-- The names below a location lead to what stands there. -/
theorem walk_self {t : Tree} {l m : Location} {i : Item} (hnames : ∀ n ∈ m, n ≠ "..")
    (hlook : t.look (l ++ m) = some i) : t.walk l m = .ok (l ++ m) := by
  induction m generalizing l with
  | nil => simp [walk]
  | cons n m ih =>
      have hdir : t.look l = some .dir := look_of_look_append (by simp) hlook
      have hn : n ≠ ".." := hnames n (by simp)
      have hstep : l ++ n :: m = (l ++ [n]) ++ m := by simp
      rw [hstep] at hlook ⊢
      rw [walk, hdir]
      simp only [if_neg hn]
      exact ih (fun k hk => hnames k (by simp [hk])) hlook

theorem foldl_of_noDots {ns done : List String} (hnames : ∀ n ∈ ns, n ≠ "..") :
    ns.foldl (fun done p => if p = ".." then done.drop 1 else p :: done) done =
      ns.reverse ++ done := by
  induction ns generalizing done with
  | nil => rfl
  | cons n ns ih =>
      rw [List.foldl_cons, if_neg (hnames n (by simp)), ih fun k hk => hnames k (by simp [hk])]
      simp

/-- A walk from a location without double dots ends where the folded names lead. -/
theorem fold_of_walk {t : Tree} {l l' : Location} {ns : List String} (hnames : ∀ n ∈ l, n ≠ "..")
    (hwalk : t.walk l ns = .ok l') : Path.fold (l ++ ns) = l' := by
  rw [Path.fold, List.foldl_append, foldl_of_noDots hnames, List.append_nil, ← reverse_of_walk hwalk,
    List.reverse_reverse]

/-! ## Paths -/

variable {t t' : Tree} {here l : Location} {p : Path}

theorem locate_eq_ok (hlocate : t.locate here p = .ok l) :
    p.parts.any holdsNull = false ∧
      t.walk (if p.isAbsolute then [] else here) p.parts = .ok l := by
  unfold locate at hlocate
  split at hlocate
  · exact absurd hlocate (by simp)
  · next hnull => exact ⟨by simpa using hnull, hlocate⟩

theorem locate_of_walk (hnull : p.parts.any holdsNull = false)
    (hwalk : t.walk (if p.isAbsolute then [] else here) p.parts = .ok l) :
    t.locate here p = .ok l := by
  rw [locate, hnull, if_neg Bool.false_ne_true, hwalk]

theorem locate_of_keepsDirs (hkeeps : KeepsDirs t t') (hlocate : t.locate here p = .ok l) :
    t'.locate here p = .ok l := by
  obtain ⟨hnull, hwalk⟩ := locate_eq_ok hlocate
  exact locate_of_walk hnull (walk_of_keepsDirs hkeeps hwalk)

/-- A path that names something leads to a directory, or to a name in one. -/
theorem isDir_or_child (hparts : p.parts ≠ []) (hlocate : t.locate here p = .ok l) :
    t.look l = some .dir ∨ ∃ m n, l = m ++ [n] ∧ t.look m = some .dir := by
  rcases List.eq_nil_or_concat p.parts with hnil | ⟨ns, n, hns⟩
  · exact absurd hnil hparts
  · have hwalk := (locate_eq_ok hlocate).2
    rw [hns, List.concat_eq_append] at hwalk
    obtain ⟨m, -, hdir, hl⟩ := walk_concat hwalk
    split at hl
    · rw [hl]
      exact .inl (look_dropLast hdir)
    · exact .inr ⟨m, n, hl, hdir⟩

theorem locate_parent (hname : p.name ≠ "") (hdots : p.name ≠ "..")
    (hlocate : t.locate here p = .ok l) :
    ∃ m, t.locate here p.parent = .ok m ∧ t.look m = some .dir ∧ l = m ++ [p.name] := by
  obtain ⟨hnull, hwalk⟩ := locate_eq_ok hlocate
  rw [Path.parts_eq hname] at hnull hwalk
  rw [List.any_append, Bool.or_eq_false_iff] at hnull
  obtain ⟨m, hm, hdir, hl⟩ := walk_concat hwalk
  rw [if_neg hdots] at hl
  exact ⟨m, locate_of_walk hnull.1 hm, hdir, hl⟩

theorem locate_of_parent {m : Location} (hname : p.name ≠ "") (hdots : p.name ≠ "..")
    (hnull : holdsNull p.name = false) (hparent : t.locate here p.parent = .ok m)
    (hdir : t.look m = some .dir) : t.locate here p = .ok (m ++ [p.name]) := by
  obtain ⟨hparts, hwalk⟩ := locate_eq_ok hparent
  rw [Path.isAbsolute_parent] at hwalk
  apply locate_of_walk
  · rw [Path.parts_eq hname, List.any_append, hparts]
    simp [hnull]
  · rw [Path.parts_eq hname, walk_append, hwalk]
    simp [Except.bind, walk, hdir, hdots]

theorem isDir_iff :
    t.isDir here p = true ↔ ∃ l, t.locate here p = .ok l ∧ t.look l = some .dir := by
  rw [isDir, lookAt]
  cases t.locate here p with
  | error e => simp
  | ok l => simp

theorem look_of_isDir {l : Location} (hdir : t.isDir here p = true)
    (hlocate : t.locate here p = .ok l) : t.look l = some .dir := by
  obtain ⟨m, hm, hlook⟩ := isDir_iff.1 hdir
  rw [hlocate, Except.ok.injEq] at hm
  rwa [hm]

theorem isDir_of_keepsDirs (hkeeps : KeepsDirs t t') (hdir : t.isDir here p = true) :
    t'.isDir here p = true := by
  obtain ⟨l, hlocate, hlook⟩ := isDir_iff.1 hdir
  exact isDir_iff.2 ⟨l, locate_of_keepsDirs hkeeps hlocate, hkeeps l hlook⟩

/-! ## Files -/

theorem read_of_look {content : Text.Bytes} {executable : Bool}
    (hlocate : t.locate here p = .ok l) (hlook : t.look l = some (.file content executable)) :
    t.read here p = .ok content := by
  simp [read, hlocate, hlook]

theorem read_eq_ok {content : Text.Bytes} (hread : t.read here p = .ok content) :
    ∃ l executable, t.locate here p = .ok l ∧ t.look l = some (.file content executable) := by
  unfold read at hread
  cases hlocate : t.locate here p with
  | error e => simp [hlocate] at hread
  | ok l =>
      cases hlook : t.look l with
      | none => simp [hlocate, hlook] at hread
      | some i =>
          cases i with
          | dir => simp [hlocate, hlook] at hread
          | file old executable =>
              simp only [hlocate, hlook, Except.ok.injEq] at hread
              subst hread
              exact ⟨l, executable, rfl, hlook⟩

theorem holds_of_look {i : Item} (hlocate : t.locate here p = .ok l) (hlook : t.look l = some i) :
    t.holds here p = true := by
  simp [holds, lookAt, hlocate, hlook]

theorem holds_of_read {content : Text.Bytes} (hread : t.read here p = .ok content) :
    t.holds here p = true := by
  obtain ⟨l, executable, hlocate, hlook⟩ := read_eq_ok hread
  exact holds_of_look hlocate hlook

/-- Writing puts a file with the content where the path leads. -/
theorem write_eq_ok {content : Text.Bytes} (hwrite : t.write here p content = .ok t') :
    ∃ l executable, t.locate here p = .ok l ∧ t.look l ≠ some .dir ∧
      t' = t.putFile l content executable := by
  unfold write at hwrite
  cases hlocate : t.locate here p with
  | error e => simp [hlocate] at hwrite
  | ok l =>
      cases hlook : t.look l with
      | none =>
          simp only [hlocate, hlook, Except.ok.injEq] at hwrite
          exact ⟨l, false, rfl, by simp [hlook], hwrite.symm⟩
      | some i =>
          cases i with
          | dir => simp [hlocate, hlook] at hwrite
          | file old executable =>
              simp only [hlocate, hlook, Except.ok.injEq] at hwrite
              exact ⟨l, executable, rfl, by simp [hlook], hwrite.symm⟩

theorem write_of_look (hlocate : t.locate here p = .ok l) (hlook : t.look l ≠ some .dir)
    (content : Text.Bytes) : ∃ t', t.write here p content = .ok t' := by
  unfold write
  cases hitem : t.look l with
  | none => exact ⟨t.putFile l content false, by simp [hlocate, hitem]⟩
  | some i =>
      cases i with
      | dir => exact absurd hitem hlook
      | file old executable =>
          exact ⟨t.putFile l content executable, by simp [hlocate, hitem]⟩

/-- Moving puts the content of the source where the target leads. -/
theorem move_eq_ok {source target : Path} (hmove : t.move here source target = .ok t') :
    target.name ≠ "" ∧ target.name ≠ ".." ∧
      ∃ origin goal content executable,
        t.locate here source = .ok origin ∧ t.locate here target = .ok goal ∧
        t.look origin = some (.file content executable) ∧ t.look goal ≠ some .dir ∧
        t' = (t.remove origin).putFile goal content executable := by
  unfold move at hmove
  split at hmove
  · simp at hmove
  · next hname =>
    rw [not_or] at hname
    refine ⟨hname.1, hname.2, ?_⟩
    cases hsource : t.locate here source with
    | error e => simp [hsource] at hmove
    | ok origin =>
        cases htarget : t.locate here target with
        | error e => simp [hsource, htarget] at hmove
        | ok goal =>
            simp only [hsource, htarget] at hmove
            split at hmove
            · simp at hmove
            · next content executable horigin hgoal =>
              rw [Except.ok.injEq] at hmove
              exact ⟨origin, goal, content, executable, rfl, rfl, horigin, hgoal, hmove.symm⟩
            · simp at hmove

theorem move_of_look {source target : Path} {origin goal : Location} {content : Text.Bytes}
    {executable : Bool} (hname : target.name ≠ "") (hdots : target.name ≠ "..")
    (hsource : t.locate here source = .ok origin) (htarget : t.locate here target = .ok goal)
    (horigin : t.look origin = some (.file content executable)) (hgoal : t.look goal ≠ some .dir) :
    t.move here source target = .ok ((t.remove origin).putFile goal content executable) := by
  unfold move
  rw [if_neg (by simp [hname, hdots]), hsource, htarget]
  cases hitem : t.look goal with
  | none => simp [horigin, hitem]
  | some i =>
      cases i with
      | dir => exact absurd hitem hgoal
      | file old bit => simp [horigin, hitem]

theorem look_putFile_child {m : Location} {n : String} (hlook : t.look m = some .dir)
    (content : Text.Bytes) (executable : Bool) :
    (t.putFile (m ++ [n]) content executable).look (m ++ [n]) =
      some (.file content executable) :=
  look_put_self hlook _

/-- A written file is where the path leads, among the directories from before. -/
theorem look_of_write {content : Text.Bytes} (hparts : p.parts ≠ [])
    (hwrite : t.write here p content = .ok t') :
    KeepsDirs t t' ∧ KeepsDirs t' t ∧
      ∃ l executable, t'.locate here p = .ok l ∧ t'.look l = some (.file content executable) := by
  obtain ⟨l, executable, hlocate, hlook, rfl⟩ := write_eq_ok hwrite
  have hkeeps : KeepsDirs t (t.putFile l content executable) := KeepsDirs.put hlook _
  obtain ⟨m, n, rfl, hdir⟩ := (isDir_or_child hparts hlocate).resolve_left hlook
  exact ⟨hkeeps, KeepsDirs.of_putFile hdir content executable, m ++ [n], executable,
    locate_of_keepsDirs hkeeps hlocate, look_putFile_child hdir content executable⟩

/-- A moved file is read back, among the directories from before. -/
theorem read_of_move {source target : Path} {origin : Location} {content : Text.Bytes}
    {executable : Bool} (hsource : t.locate here source = .ok origin)
    (horigin : t.look origin = some (.file content executable))
    (hmove : t.move here source target = .ok t') :
    t'.read here target = .ok content ∧ KeepsDirs t t' ∧ KeepsDirs t' t := by
  obtain ⟨hname, -, origin', goal, content', executable', hsource', htarget, horigin', hgoal, rfl⟩ :=
    move_eq_ok hmove
  rw [hsource, Except.ok.injEq] at hsource'
  subst hsource'
  rw [horigin, Option.some.injEq, Item.file.injEq] at horigin'
  obtain ⟨rfl, rfl⟩ := horigin'
  have hroot : origin ≠ [] := by
    rintro rfl
    rw [look_nil] at horigin
    exact absurd horigin (by simp)
  have hfile : t.look origin ≠ some .dir := by simp [horigin]
  have hremove : KeepsDirs t (t.remove origin) := KeepsDirs.remove hfile
  have hremoved : KeepsDirs (t.remove origin) t := KeepsDirs.of_remove hroot
  have hparts : target.parts ≠ [] := by simp [Path.parts_eq hname]
  obtain ⟨m, n, rfl, hdir⟩ := (isDir_or_child hparts htarget).resolve_left hgoal
  have hput : KeepsDirs (t.remove origin)
      ((t.remove origin).putFile (m ++ [n]) content executable) :=
    KeepsDirs.put (fun hnew => hgoal (hremoved _ hnew)) _
  have hput' := KeepsDirs.of_putFile (n := n) (hremove m hdir) content executable
  refine ⟨?_, hremove.trans hput, hput'.trans hremoved⟩
  exact read_of_look (locate_of_keepsDirs (hremove.trans hput) htarget)
    (look_putFile_child (hremove m hdir) content executable)

/-- What was discarded is no longer there. -/
theorem holds_of_discard (hdiscard : t.discard here p = .ok t') : t'.holds here p = false := by
  unfold discard at hdiscard
  cases hlocate : t.locate here p with
  | error e =>
      cases e with
      | noEntry =>
          simp only [hlocate, Except.ok.injEq] at hdiscard
          simp [← hdiscard, holds, lookAt, hlocate]
      | _ => simp [hlocate] at hdiscard
  | ok l =>
      cases hlook : t.look l with
      | none =>
          simp only [hlocate, hlook, Except.ok.injEq] at hdiscard
          simp [← hdiscard, holds, lookAt, hlocate, hlook]
      | some i =>
          cases i with
          | dir => simp [hlocate, hlook] at hdiscard
          | file content executable =>
              simp only [hlocate, hlook, Except.ok.injEq] at hdiscard
              subst hdiscard
              have hkeeps : KeepsDirs t (t.remove l) := KeepsDirs.remove (by simp [hlook])
              have hroot : l ≠ [] := by
                rintro rfl
                rw [look_nil] at hlook
                cases hlook
              have hgone : (t.remove l).look l = none := by
                simpa using look_remove_append (t := t) hroot []
              simp [holds, lookAt, locate_of_keepsDirs hkeeps hlocate, hgone]

/-! ## Directories -/

theorem makeDir_eq_ok (hmake : t.makeDir here p = .ok t') :
    ∃ l, t.locate here p = .ok l ∧ t.look l = none ∧ t' = t.putDir l := by
  unfold makeDir at hmake
  cases hlocate : t.locate here p with
  | error e => simp [hlocate] at hmake
  | ok l =>
      cases hlook : t.look l with
      | some i => simp [hlocate, hlook] at hmake
      | none =>
          simp only [hlocate, hlook, Except.ok.injEq] at hmake
          exact ⟨l, rfl, hlook, hmake.symm⟩

theorem keepsDirs_of_makeDir (hmake : t.makeDir here p = .ok t') : KeepsDirs t t' := by
  obtain ⟨l, -, hlook, rfl⟩ := makeDir_eq_ok hmake
  exact KeepsDirs.put (by simp [hlook]) _

theorem isDir_of_makeDir (hparts : p.parts ≠ []) (hmake : t.makeDir here p = .ok t') :
    t'.isDir here p = true := by
  have hkeeps := keepsDirs_of_makeDir hmake
  obtain ⟨l, hlocate, hlook, rfl⟩ := makeDir_eq_ok hmake
  rcases isDir_or_child hparts hlocate with hdir | ⟨m, n, rfl, hdir⟩
  · rw [hlook] at hdir
    exact absurd hdir (by simp)
  · exact isDir_iff.2 ⟨m ++ [n], locate_of_keepsDirs hkeeps hlocate, look_put_self hdir _⟩

/-- What holds along the making of each directory on the way holds along the making of all. -/
theorem related_of_makeDirsFrom {R : Tree → Tree → Prop} (hrefl : ∀ t, R t t)
    (htrans : ∀ {t u v}, R t u → R u v → R t v) {anchor : Anchor} {ns : List String}
    (hmakeDir : ∀ {t t' ms}, ms <+: ns.reverse → t.makeDir here ⟨anchor, ms⟩ = .ok t' → R t t')
    (hmake : makeDirsFrom here anchor ns t = .ok t') : R t t' := by
  induction ns generalizing t t' with
  | nil =>
      cases hmake
      exact hrefl t
  | cons n ns ih =>
      have hbegins : ns.reverse <+: (n :: ns).reverse := by simp
      rw [makeDirsFrom] at hmake
      split at hmake
      · next u hfirst =>
        cases hmake
        exact hmakeDir (List.prefix_refl _) hfirst
      · split at hmake
        · split at hmake
          · cases hmake
          · next u hbefore =>
            have hrelated := ih (fun hms => hmakeDir (hms.trans hbegins)) hbefore
            split at hmake
            · next v hsecond =>
              cases hmake
              exact htrans hrelated (hmakeDir (List.prefix_refl _) hsecond)
            · split at hmake
              · cases hmake
                exact hrelated
              · cases hmake
        · split at hmake
          · cases hmake
            exact hrefl t
          · cases hmake

/-- What holds along the making of each directory on the way holds where it fails half-way. -/
theorem related_of_partDirsFrom {R : Tree → Tree → Prop} (hrefl : ∀ t, R t t)
    (htrans : ∀ {t u v}, R t u → R u v → R t v) {anchor : Anchor} {ns : List String}
    (hmakeDir : ∀ {t t' ms}, ms <+: ns.reverse → t.makeDir here ⟨anchor, ms⟩ = .ok t' → R t t')
    (t : Tree) : R t (partDirsFrom here anchor ns t) := by
  induction ns with
  | nil => exact hrefl t
  | cons n ns ih =>
      have hbegins : ns.reverse <+: (n :: ns).reverse := by simp
      rw [partDirsFrom]
      split
      · next u hfirst => exact hmakeDir (List.prefix_refl _) hfirst
      · split
        · split
          · next u hbefore =>
            exact related_of_makeDirsFrom hrefl htrans
              (fun hms => hmakeDir (hms.trans hbegins)) hbefore
          · exact ih fun hms => hmakeDir (hms.trans hbegins)
        · exact hrefl t

theorem keepsDirs_of_makeDirs (hmake : t.makeDirs here p = .ok t') : KeepsDirs t t' :=
  related_of_makeDirsFrom KeepsDirs.refl KeepsDirs.trans (fun _ => keepsDirs_of_makeDir) hmake

theorem isDir_of_makeDirsFrom {anchor : Anchor} {n : String} {ns : List String}
    (hmake : makeDirsFrom here anchor (n :: ns) t = .ok t') :
    t'.isDir here ⟨anchor, (n :: ns).reverse⟩ = true := by
  have hparts : (⟨anchor, (n :: ns).reverse⟩ : Path).parts ≠ [] := by simp
  rw [makeDirsFrom] at hmake
  split at hmake
  · next u hfirst =>
    cases hmake
    exact isDir_of_makeDir hparts hfirst
  · split at hmake
    · split at hmake
      · cases hmake
      · split at hmake
        · next v hsecond =>
          cases hmake
          exact isDir_of_makeDir hparts hsecond
        · split at hmake
          · next hdir =>
            cases hmake
            exact hdir
          · cases hmake
    · split at hmake
      · next hdir =>
        cases hmake
        exact hdir
      · cases hmake

/-- A directory with a name that was made is there. -/
theorem isDir_of_makeDirs (hparts : p.parts ≠ []) (hmake : t.makeDirs here p = .ok t') :
    t'.isDir here p = true := by
  obtain ⟨anchor, parts⟩ := p
  obtain ⟨ns, n, rfl⟩ := (List.eq_nil_or_concat parts).resolve_left hparts
  rw [List.concat_eq_append] at hmake ⊢
  rw [makeDirs, List.reverse_append, List.reverse_singleton, List.singleton_append] at hmake
  have hdir := isDir_of_makeDirsFrom hmake
  rwa [List.reverse_cons, List.reverse_reverse] at hdir

/-- A directory that was made is there. -/
theorem makeDirs_isDir (hhere : t.look here = some .dir) (hmake : t.makeDirs here p = .ok t') :
    t'.isDir here p = true ∧ KeepsDirs t t' := by
  refine ⟨?_, keepsDirs_of_makeDirs hmake⟩
  obtain ⟨anchor, parts⟩ := p
  cases parts with
  | nil =>
      cases hmake
      cases anchor with
      | relative => exact isDir_iff.2 ⟨here, rfl, hhere⟩
      | root => exact isDir_iff.2 ⟨[], rfl, look_nil t⟩
      | doubleRoot => exact isDir_iff.2 ⟨[], rfl, look_nil t⟩
  | cons n ns => exact isDir_of_makeDirs (List.cons_ne_nil n ns) hmake

/-- Nothing is made where a directory is. -/
theorem makeDirs_of_isDir (hdir : t.isDir here p = true) : t.makeDirs here p = .ok t := by
  obtain ⟨anchor, parts⟩ := p
  rcases List.eq_nil_or_concat parts with rfl | ⟨ns, n, rfl⟩
  · rfl
  · obtain ⟨l, hlocate, hlook⟩ := isDir_iff.1 hdir
    have hmake : t.makeDir here ⟨anchor, ns.concat n⟩ =
        .error ⟨.alreadyExists, Path.text ⟨anchor, ns.concat n⟩, none⟩ := by
      simp only [makeDir, hlocate, hlook]
    rw [makeDirs, List.concat_eq_append, List.reverse_append, List.reverse_singleton,
      List.singleton_append, makeDirsFrom]
    simp only [List.reverse_cons, List.reverse_reverse, ← List.concat_eq_append, hmake, hdir]
    rfl

end Tree
end JitLens.Files
