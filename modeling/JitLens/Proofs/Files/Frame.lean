import JitLens.Proofs.Files.Child
/-!
# Files that stay

The bytes at a location, and what leaves them alone: a file that is written or removed elsewhere,
directories that are made where nothing stands, and a directory that is laid over another one which
the location is not below.
-/

namespace JitLens.Files

namespace Path

/-- The location that a path spells from a working directory, whatever is there. -/
def spelled (here : Location) (p : Path) : Location :=
  p.parts.foldl Location.enter (if p.isAbsolute then [] else here)

theorem spelled_child {s : String} (hs : IsName s) (here : Location) (p : Path) :
    (p.child s).spelled here = p.spelled here ++ [s] := by
  have habsolute : (p.child s).isAbsolute = p.isAbsolute := by
    rw [hs.child_eq]
    rfl
  have hparts : (p.child s).parts = p.parts ++ [s] := by
    rw [hs.child_eq]
  unfold spelled
  rw [habsolute, hparts, List.foldl_append]
  exact if_neg hs.notDots

theorem foldl_enter_of_noDots {ns : List String} (hns : ∀ n ∈ ns, n ≠ "..") (l : Location) :
    ns.foldl Location.enter l = l ++ ns := by
  induction ns generalizing l with
  | nil => simp
  | cons n ns ih =>
      have hstep : l.enter n = l ++ [n] := if_neg (hns n (by simp))
      rw [List.foldl_cons, hstep, ih fun k hk => hns k (by simp [hk])]
      simp

end Path

/-- What is put somewhere is what stands below from then on, or nothing changes there. -/
theorem Entry.get?_put_append (new e : Entry) (l k : Location) :
    (put new e l).get? (l ++ k) = new.get? k ∨ (put new e l).get? (l ++ k) = e.get? (l ++ k) := by
  induction l generalizing e with
  | nil => exact .inl (by simp [put])
  | cons n l ih =>
      cases e with
      | file content executable => exact .inr rfl
      | dir children =>
          cases l with
          | nil => exact .inl (by simp [put, get?])
          | cons m l =>
              cases hchild : child? children n with
              | none => exact .inr (by simp [put, hchild])
              | some f =>
                  have hput : (put new (.dir children) (n :: m :: l)).get? (n :: m :: l ++ k) =
                      (put new f (m :: l)).get? (m :: l ++ k) := by
                    simp [put, hchild, get?]
                  have hbefore : (dir children).get? (n :: m :: l ++ k) = f.get? (m :: l ++ k) := by
                    simp [get?, hchild]
                  rw [hput, hbefore]
                  exact ih f

namespace Tree

variable {t t' : Tree} {here l m : Location} {p : Path}

/-- A path that leads somewhere leads to the location that it spells. -/
theorem spelled_of_locate (hlocate : t.locate here p = .ok l) : p.spelled here = l :=
  (eq_of_walk (locate_eq_ok hlocate).2).symm

/-! ## The bytes of a file -/

/-- The bytes of the file at a location. -/
def bytesAt (t : Tree) (l : Location) : Option Text.Bytes :=
  match t.look l with
  | some (.file content _) => some content
  | _ => none

theorem bytesAt_congr (hlook : t'.look l = t.look l) : t'.bytesAt l = t.bytesAt l := by
  rw [bytesAt, bytesAt, hlook]

theorem bytesAt_of_read {content : Text.Bytes} (hread : t.read here p = .ok content) :
    t.bytesAt (p.spelled here) = some content := by
  obtain ⟨l, executable, hlocate, hlook⟩ := read_eq_ok hread
  rw [spelled_of_locate hlocate, bytesAt, hlook]

/-- A path without double dots leads to the file that stands where it spells. -/
theorem read_of_bytesAt {content : Text.Bytes} (hdots : ∀ n ∈ p.parts, n ≠ "..")
    (hnull : p.parts.any holdsNull = false)
    (hbytes : t.bytesAt (p.spelled here) = some content) : t.read here p = .ok content := by
  unfold bytesAt at hbytes
  rw [Path.spelled, Path.foldl_enter_of_noDots hdots] at hbytes
  split at hbytes
  · next old executable hlook =>
    obtain rfl := Option.some.inj hbytes
    exact read_of_look (locate_of_walk hnull (walk_self hdots hlook)) hlook
  · cases hbytes

/-- A path that leads somewhere leads to the file that stands where it spells. -/
theorem read_of_holds {content : Text.Bytes} (hholds : t.holds here p = true)
    (hbytes : t.bytesAt (p.spelled here) = some content) : t.read here p = .ok content := by
  obtain ⟨l, hlocate, -⟩ := exists_of_holds hholds
  rw [spelled_of_locate hlocate, bytesAt] at hbytes
  split at hbytes
  · next old executable hlook =>
    obtain rfl := Option.some.inj hbytes
    exact read_of_look hlocate hlook
  · cases hbytes

/-- Nothing stands below what is no directory. -/
theorem look_append_eq_none {k : Location} (hk : k ≠ []) (hm : t.look m ≠ some .dir) :
    t.look (m ++ k) = none := by
  cases hlook : t.look (m ++ k) with
  | none => rfl
  | some i => exact absurd (look_of_look_append hk hlook) hm

theorem look_put_append (t : Tree) {m : Location} (hm : m ≠ []) (k : Location) (e : Entry) :
    (t.put m e).look (m ++ k) = (e.get? k).map Entry.item ∨
      (t.put m e).look (m ++ k) = t.look (m ++ k) := by
  obtain ⟨n, m, rfl⟩ := List.exists_cons_of_ne_nil hm
  have hroot : (Entry.put e t.root (n :: m)).item = .dir := by
    rw [Entry.item_put]
    rfl
  have hlook : (t.put (n :: m) e).look (n :: m ++ k) =
      ((Entry.put e t.root (n :: m)).get? (n :: m ++ k)).map Entry.item := by
    rw [put, if_neg (by simp), look, entry?, root_ofRoot hroot]
  rw [hlook]
  exact (Entry.get?_put_append e t.root (n :: m) k).imp (congrArg _) (congrArg _)

/-- There is nothing in a new directory. -/
theorem look_putDir_child (hm : t.look m = none) (k : String) :
    (t.putDir m).look (m ++ [k]) = none := by
  have hroot : m ≠ [] := by
    rintro rfl
    rw [look_nil] at hm
    cases hm
  rcases look_put_append t hroot [k] (.dir []) with hnew | hold
  · rw [putDir, hnew]
    rfl
  · rw [putDir, hold]
    exact look_append_eq_none (List.cons_ne_nil _ _) (by simp [hm])

/-- An entry that is put in the place of no directory, and that has nothing below it, leaves the
other locations alone. -/
theorem look_put_of_ne {e : Entry} (hm : t.look m ≠ some .dir) (hne : m ≠ l)
    (hempty : ∀ k, k ≠ [] → e.get? k = none) : (t.put m e).look l = t.look l := by
  have hroot : m ≠ [] := by
    rintro rfl
    exact hm (look_nil t)
  by_cases hbelow : m <+: l
  · obtain ⟨k, rfl⟩ := hbelow
    have hk : k ≠ [] := by
      rintro rfl
      exact hne (by simp)
    rcases look_put_append t hroot k e with hnew | hold
    · rw [hnew, hempty k hk, look_append_eq_none hk hm]
      rfl
    · exact hold
  · exact look_put_of_not_below hbelow e

theorem look_putFile_of_free (hm : t.look m ≠ some .dir) (hne : m ≠ l) (content : Text.Bytes)
    (executable : Bool) : (t.putFile m content executable).look l = t.look l := by
  apply look_put_of_ne hm hne
  intro k hk
  obtain ⟨n, k, rfl⟩ := List.exists_cons_of_ne_nil hk
  rfl

theorem look_putDir_of_ne (hm : t.look m ≠ some .dir) (hne : m ≠ l) :
    (t.putDir m).look l = t.look l := by
  apply look_put_of_ne hm hne
  intro k hk
  obtain ⟨n, k, rfl⟩ := List.exists_cons_of_ne_nil hk
  rfl

/-- A directory comes up where it is made, or nothing changes there. -/
theorem look_putDir_self (hm : t.look m = none) :
    (t.putDir m).look m = some .dir ∨ (t.putDir m).look m = none := by
  have hroot : m ≠ [] := by
    rintro rfl
    rw [look_nil] at hm
    cases hm
  have hput := look_put_append t hroot [] (.dir [])
  rw [List.append_nil, hm] at hput
  exact hput

theorem look_remove_of_ne (hm : t.look m ≠ some .dir) (hne : m ≠ l) :
    (t.remove m).look l = t.look l := by
  by_cases hbelow : m <+: l
  · obtain ⟨k, rfl⟩ := hbelow
    have hk : k ≠ [] := by
      rintro rfl
      exact hne (by simp)
    have hroot : m ≠ [] := by
      rintro rfl
      exact hm (look_nil t)
    rw [look_remove_append hroot, look_append_eq_none hk hm]
  · exact look_remove_of_not_below hbelow

theorem bytesAt_putFile (hm : t.look m ≠ some .dir) (hne : m ≠ l) (content : Text.Bytes)
    (executable : Bool) : (t.putFile m content executable).bytesAt l = t.bytesAt l :=
  bytesAt_congr (look_putFile_of_free hm hne content executable)

/-- A directory that is made where nothing stands leaves all files alone. -/
theorem bytesAt_putDir (hm : t.look m = none) : (t.putDir m).bytesAt l = t.bytesAt l := by
  have hnoDir : t.look m ≠ some .dir := by
    rw [hm]
    exact nofun
  by_cases hne : m = l
  · subst hne
    rcases look_putDir_self hm with hnew | hold
    · rw [bytesAt, bytesAt, hnew, hm]
    · rw [bytesAt, bytesAt, hold, hm]
  · exact bytesAt_congr (look_putDir_of_ne hnoDir hne)

theorem bytesAt_remove (hm : t.look m ≠ some .dir) (hne : m ≠ l) :
    (t.remove m).bytesAt l = t.bytesAt l :=
  bytesAt_congr (look_remove_of_ne hm hne)

/-! ## A file written anew -/

theorem look_putFile_self {content old : Text.Bytes} {executable before : Bool}
    (hlook : t.look l = some (.file old before)) :
    (t.putFile l content executable).look l = some (.file content executable) := by
  rcases List.eq_nil_or_concat l with rfl | ⟨m, n, rfl⟩
  · rw [look_nil] at hlook
    cases hlook
  · rw [List.concat_eq_append] at hlook ⊢
    exact look_putFile_child (look_of_look_append (by simp) hlook) content executable

/-- Below a file nothing stands, so that a file in its place changes nothing elsewhere. -/
theorem look_putFile_of_ne {content old : Text.Bytes} {executable before : Bool}
    (hlook : t.look l = some (.file old before)) (hne : m ≠ l) :
    (t.putFile l content executable).look m = t.look m :=
  look_putFile_of_free (by simp [hlook]) hne.symm content executable

/-- A file that can be read can be written, and is read as it was written. -/
theorem exists_write_of_read {old : Text.Bytes} (hread : t.read here p = .ok old)
    (new : Text.Bytes) :
    ∃ t', t.write here p new = .ok t' ∧ t'.read here p = .ok new ∧
      ∀ m, t.locate here p ≠ .ok m → t'.look m = t.look m := by
  obtain ⟨l, executable, hlocate, hlook⟩ := read_eq_ok hread
  have hkeeps : KeepsDirs t (t.putFile l new executable) := KeepsDirs.put (by simp [hlook]) _
  refine ⟨t.putFile l new executable, by simp [write, hlocate, hlook], ?_, ?_⟩
  · exact read_of_look (locate_of_keepsDirs hkeeps hlocate) (look_putFile_self hlook)
  · intro m hm
    exact look_putFile_of_ne hlook fun heq => hm (heq ▸ hlocate)

/-! ## Operations -/

theorem bytesAt_of_write {content : Text.Bytes} (hwrite : t.write here p content = .ok t')
    (hne : p.spelled here ≠ l) : t'.bytesAt l = t.bytesAt l := by
  obtain ⟨m, executable, hlocate, hlook, rfl⟩ := write_eq_ok hwrite
  rw [spelled_of_locate hlocate] at hne
  exact bytesAt_putFile hlook hne content executable

theorem bytesAt_of_copyFile {source target : Path}
    (hcopy : t.copyFile here source target = .ok t') (hne : target.spelled here ≠ l) :
    t'.bytesAt l = t.bytesAt l := by
  obtain ⟨-, goal, content, -, y, -, -, htarget, hgoal, rfl⟩ := copyFile_eq_ok hcopy
  rw [spelled_of_locate htarget] at hne
  exact bytesAt_putFile hgoal hne content y

theorem bytesAt_of_makeDir (hmake : t.makeDir here p = .ok t') :
    t'.bytesAt l = t.bytesAt l := by
  obtain ⟨m, -, hlook, rfl⟩ := makeDir_eq_ok hmake
  exact bytesAt_putDir hlook

theorem bytesAt_of_makeDirs (hmake : t.makeDirs here p = .ok t') :
    t'.bytesAt l = t.bytesAt l :=
  related_of_makeDirsFrom (R := fun t t' => t'.bytesAt l = t.bytesAt l) (fun _ => rfl)
    (fun h h' => h'.trans h) (fun _ => bytesAt_of_makeDir) hmake

theorem bytesAt_partDirs (t : Tree) (here : Location) (p : Path) :
    (t.partDirs here p).bytesAt l = t.bytesAt l :=
  related_of_partDirsFrom (R := fun t t' => t'.bytesAt l = t.bytesAt l) (fun _ => rfl)
    (fun h h' => h'.trans h) (fun _ => bytesAt_of_makeDir) t

theorem bytesAt_of_discard (hdiscard : t.discard here p = .ok t') (hne : p.spelled here ≠ l) :
    t'.bytesAt l = t.bytesAt l := by
  unfold discard at hdiscard
  cases hlocate : t.locate here p with
  | error e =>
      cases e with
      | noEntry =>
          simp only [hlocate, Except.ok.injEq] at hdiscard
          rw [hdiscard]
      | _ => simp [hlocate] at hdiscard
  | ok m =>
      rw [spelled_of_locate hlocate] at hne
      cases hlook : t.look m with
      | none =>
          simp only [hlocate, hlook, Except.ok.injEq] at hdiscard
          rw [hdiscard]
      | some i =>
          cases i with
          | dir => simp [hlocate, hlook] at hdiscard
          | file content executable =>
              simp only [hlocate, hlook, Except.ok.injEq] at hdiscard
              rw [← hdiscard]
              exact bytesAt_remove (by simp [hlook]) hne

theorem bytesAt_overlay (t : Tree) {source target : Path}
    (houtside : ¬ target.spelled here <+: l) :
    (t.overlay here source target).2.bytesAt l = t.bytesAt l := by
  unfold overlay
  cases horigin : t.locate here source with
  | error e => rfl
  | ok origin =>
      cases hgoal : t.locate here target with
      | error e => rfl
      | ok goal =>
          rw [spelled_of_locate hgoal] at houtside
          have hroot : goal ≠ [] := by
            rintro rfl
            exact houtside List.nil_prefix
          dsimp only
          split
          · rw [if_neg hroot]
            exact bytesAt_congr (look_put_of_not_below houtside _)
          · rfl

end Tree
end JitLens.Files
