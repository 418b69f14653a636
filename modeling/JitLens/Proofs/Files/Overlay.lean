import JitLens.Proofs.Files.Frame
/-!
# One directory over another

What stands below a directory after another one was laid over it: what stands at the place in the
upper one, or else what stood there before.  Nothing is refused if no file of the one is a directory
of the other.
-/

namespace JitLens.Files

namespace Entry

/-! ## Entries -/

/-- What stands at a location below an entry, if there is one. -/
def itemAt (e : Option Entry) (r : Location) : Option Item :=
  (e.bind fun f => f.get? r).map item

@[simp] theorem itemAt_none (r : Location) : itemAt none r = none := rfl

@[simp] theorem itemAt_nil (e : Entry) : itemAt (some e) [] = some e.item := by
  simp [itemAt]

@[simp] theorem itemAt_file (content : Text.Bytes) (executable : Bool) (n : String) (r : Location) :
    itemAt (some (.file content executable)) (n :: r) = none := rfl

@[simp] theorem itemAt_dir (children : List (String × Entry)) (n : String) (r : Location) :
    itemAt (some (.dir children)) (n :: r) = itemAt (child? children n) r := by
  simp only [itemAt, Option.bind_some, get?]
  cases child? children n with
  | none => rfl
  | some e => rfl

/-- No file of the one is a directory of the other. -/
structure Fits (upper lower : Option Entry) : Prop where
  fileNotDir : ∀ r content executable, itemAt upper r = some (.file content executable) →
    itemAt lower r ≠ some .dir
  dirNotFile : ∀ r content executable, itemAt upper r = some .dir →
    itemAt lower r ≠ some (.file content executable)

theorem Fits.child {upper lower : List (String × Entry)}
    (hfits : Fits (some (.dir upper)) (some (.dir lower))) (n : String) :
    Fits (child? upper n) (child? lower n) where
  fileNotDir r content executable := by
    simpa using hfits.fileNotDir (n :: r) content executable
  dirNotFile r content executable := by
    simpa using hfits.dirNotFile (n :: r) content executable

theorem fits_none (upper : Option Entry) : Fits upper none where
  fileNotDir _ _ _ _ := nofun
  dirNotFile _ _ _ _ := nofun

/-- The first entry lies over the second one in the third. -/
def LiesOver (upper lower result : Option Entry) : Prop :=
  ∀ r, itemAt result r = (itemAt upper r).or (itemAt lower r)

theorem liesOver_none (lower : Option Entry) : LiesOver none lower lower :=
  fun _ => rfl

/-- Directories lie over one another if their children do. -/
theorem LiesOver.dir {upper lower result : List (String × Entry)}
    (hchildren : ∀ n, LiesOver (child? upper n) (child? lower n) (child? result n)) :
    LiesOver (some (.dir upper)) (some (.dir lower)) (some (.dir result)) := by
  intro r
  cases r with
  | nil => rfl
  | cons n r => simpa using hchildren n r

/-- A directory comes where nothing stands. -/
theorem LiesOver.newDir {upper result : List (String × Entry)}
    (hchildren : ∀ n, LiesOver (child? upper n) none (child? result n)) :
    LiesOver (some (.dir upper)) none (some (.dir result)) := by
  intro r
  cases r with
  | nil => rfl
  | cons n r => simpa using hchildren n r

/-- A file takes the place of a file, or comes where nothing stands. -/
theorem LiesOver.file {content : Text.Bytes} {executable : Bool} {lower : Option Entry}
    (hlower : ∀ children, lower ≠ some (.dir children)) :
    LiesOver (some (.file content executable)) lower (some (.file content executable)) := by
  intro r
  cases r with
  | nil => simp
  | cons n r =>
      cases lower with
      | none => rfl
      | some e =>
          cases e with
          | file old bit => rfl
          | dir children => exact absurd rfl (hlower children)

theorem layFile_of_fits (source target : String) {name : String} {content : Text.Bytes} {executable : Bool}
    {children : List (String × Entry)}
    (hfits : Fits (some (.file content executable)) (child? children name)) :
    layFile source target (.file content executable) name children =
      ([], putChild children name (.file content executable)) ∧
    ∀ below, child? children name ≠ some (.dir below) := by
  have hnot : ∀ below, child? children name ≠ some (.dir below) := by
    intro below hdir
    rw [hdir] at hfits
    exact hfits.fileNotDir [] content executable rfl rfl
  refine ⟨?_, hnot⟩
  unfold layFile
  split
  · next inner hdir => exact absurd hdir (hnot inner)
  · rfl

/-- What laying one entry over the entry of its name comes to. -/
structure LaidOne (entry : Entry) (name : String) (children : List (String × Entry))
    (r : List CopyError × List (String × Entry)) : Prop where
  errors : r.1 = []
  there : LiesOver (some entry) (child? children name) (child? r.2 name)
  elsewhere : ∀ m, m ≠ name → child? r.2 m = child? children m

theorem LaidOne.put {entry : Entry} {name : String} {children : List (String × Entry)} {new : Entry}
    (hover : LiesOver (some entry) (child? children name) (some new)) :
    LaidOne entry name children ([], putChild children name new) where
  errors := rfl
  there := by
    rw [child?_putChild, if_pos rfl]
    exact hover
  elsewhere m hm := by
    rw [child?_putChild, if_neg (Ne.symm hm)]

/-- What laying entries over children comes to: names that were seen before are passed over. -/
structure LaidAll (seen : List String) (entries children : List (String × Entry))
    (r : List CopyError × List (String × Entry)) : Prop where
  errors : r.1 = []
  unseen : ∀ n, n ∉ seen → LiesOver (child? entries n) (child? children n) (child? r.2 n)
  seen : ∀ n ∈ seen, child? r.2 n = child? children n

theorem child?_cons (name : String) (entry : Entry) (rest : List (String × Entry)) (n : String) :
    child? ((name, entry) :: rest) n = if name = n then some entry else child? rest n := rfl

section

variable {seen : List String} {name : String} {entry : Entry} {rest children : List (String × Entry)}
  {r : List CopyError × List (String × Entry)}

theorem LaidAll.skip (hseen : name ∈ seen) (hrest : LaidAll seen rest children r) :
    LaidAll seen ((name, entry) :: rest) children r where
  errors := hrest.errors
  unseen n hn := by
    have hne : name ≠ n := by
      rintro rfl
      exact hn hseen
    rw [child?_cons, if_neg hne]
    exact hrest.unseen n hn
  seen := hrest.seen

theorem LaidAll.cons {errors : List CopyError} {result : List (String × Entry)}
    (hnew : name ∉ seen) (hone : LaidOne entry name children (errors, result))
    (hrest : LaidAll (name :: seen) rest result r) :
    LaidAll seen ((name, entry) :: rest) children (errors ++ r.1, r.2) where
  errors := by
    obtain rfl : errors = [] := hone.errors
    exact hrest.errors
  unseen n hn := by
    rw [child?_cons]
    by_cases hname : name = n
    · subst hname
      rw [if_pos rfl, hrest.seen name (by simp)]
      exact hone.there
    · have hunseen := hrest.unseen n (by simp [hn, Ne.symm hname])
      rw [if_neg hname]
      rwa [hone.elsewhere n (Ne.symm hname)] at hunseen
  seen n hn := by
    have hname : n ≠ name := by
      rintro rfl
      exact hnew hn
    rw [hrest.seen n (List.mem_cons_of_mem _ hn), hone.elsewhere n hname]

end

mutual

theorem laidOne_layOver (source target : String) (entry : Entry) (name : String)
    (children : List (String × Entry)) (hfits : Fits (some entry) (child? children name)) :
    LaidOne entry name children (layOver source target entry name children) :=
  match entry with
  | .file content executable => by
    obtain ⟨hlay, hnot⟩ := layFile_of_fits source target hfits
    rw [layOver, hlay]
    exact .put (.file hnot)
  | .dir inner => by
    rw [layOver]
    split
    · next content executable hfile =>
      rw [hfile] at hfits
      exact absurd rfl (hfits.dirNotFile [] content executable rfl)
    · next below hdir =>
      rw [hdir] at hfits
      have hall := laidAll_layAll source target [] inner below fun n _ => hfits.child n
      have hover : LiesOver (some (.dir inner)) (child? children name)
          (some (.dir (layAll source target [] inner below).2)) := by
        rw [hdir]
        exact .dir fun n => hall.unseen n List.not_mem_nil
      have hlaid := LaidOne.put hover
      rwa [← hall.errors] at hlaid
    · next hnone =>
      have hall := laidAll_layAll source target [] inner [] fun n _ => fits_none _
      have hover : LiesOver (some (.dir inner)) (child? children name)
          (some (.dir (layAll source target [] inner []).2)) := by
        rw [hnone]
        exact .newDir fun n => hall.unseen n List.not_mem_nil
      have hlaid := LaidOne.put hover
      rwa [← hall.errors] at hlaid

theorem laidAll_layAll (source target : String) (seen : List String)
    (entries children : List (String × Entry))
    (hfits : ∀ n, n ∉ seen → Fits (child? entries n) (child? children n)) :
    LaidAll seen entries children (layAll source target seen entries children) :=
  match entries with
  | [] => by
    rw [layAll]
    exact ⟨rfl, fun n _ => liesOver_none _, fun n _ => rfl⟩
  | (name, entry) :: rest => by
    rw [layAll]
    split
    · next hseen =>
      refine .skip hseen (laidAll_layAll source target seen rest children fun n hn => ?_)
      have hfit := hfits n hn
      rwa [child?_cons, if_neg (ne_of_mem_of_not_mem hseen hn)] at hfit
    · next hnew =>
      have hfirst := hfits name hnew
      rw [child?_cons, if_pos rfl] at hfirst
      have hone := laidOne_layOver (source ++ "/" ++ name) (target ++ "/" ++ name) entry name
        children hfirst
      refine .cons hnew hone (laidAll_layAll source target (name :: seen) rest _ fun n hn => ?_)
      rw [List.mem_cons, not_or] at hn
      have hfit := hfits n hn.2
      rw [child?_cons, if_neg (Ne.symm hn.1)] at hfit
      rwa [hone.elsewhere n hn.1]

end

end Entry

namespace Tree

/-! ## Trees -/

variable {t : Tree} {here origin goal : Location} {source target : Path}

theorem look_append (t : Tree) (l r : Location) : t.look (l ++ r) = Entry.itemAt (t.entry? l) r := by
  rw [look, entry?, Entry.get?_append]
  rfl

theorem exists_children {l : Location} (hdir : t.look l = some .dir) :
    ∃ children, t.entry? l = some (.dir children) := by
  rw [look, Option.map_eq_some_iff] at hdir
  obtain ⟨e, hentry, hitem⟩ := hdir
  cases e with
  | file content executable => cases hitem
  | dir children => exact ⟨children, hentry⟩

/-- A directory can be laid over another one: neither is inside of the other, and no path is a file
in the one and a directory in the other. -/
structure CanLieOver (t : Tree) (origin goal : Location) : Prop where
  notInside : ¬ goal <+: origin
  notAround : ¬ origin <+: goal
  fileNotDir : ∀ r content executable, t.look (origin ++ r) = some (.file content executable) →
    t.look (goal ++ r) ≠ some .dir
  dirNotFile : ∀ r content executable, t.look (origin ++ r) = some .dir →
    t.look (goal ++ r) ≠ some (.file content executable)

/-- In the second tree a directory of the first one lies over another one. -/
structure LiesOver (t t' : Tree) (origin goal : Location) : Prop where
  inside : ∀ r, t'.look (goal ++ r) = (t.look (origin ++ r)).or (t.look (goal ++ r))
  outside : ∀ m, ¬ goal <+: m → t'.look m = t.look m

theorem CanLieOver.fits {entries children : List (String × Entry)} (hcan : t.CanLieOver origin goal)
    (horigin : t.entry? origin = some (.dir entries))
    (hgoal : t.entry? goal = some (.dir children)) :
    Entry.Fits (some (.dir entries)) (some (.dir children)) where
  fileNotDir r content executable := by
    rw [← horigin, ← hgoal, ← look_append, ← look_append]
    exact hcan.fileNotDir r content executable
  dirNotFile r content executable := by
    rw [← horigin, ← hgoal, ← look_append, ← look_append]
    exact hcan.dirNotFile r content executable

/-- A directory that can be laid over another one is. -/
theorem exists_overlay (hsource : t.locate here source = .ok origin)
    (htarget : t.locate here target = .ok goal) (horigin : t.look origin = some .dir)
    (hgoal : t.look goal = some .dir) (hcan : t.CanLieOver origin goal) :
    ∃ t', t.overlay here source target = ([], t') ∧ LiesOver t t' origin goal := by
  obtain ⟨entries, hentries⟩ := exists_children horigin
  obtain ⟨children, hchildren⟩ := exists_children hgoal
  have hall := Entry.laidAll_layAll source.text target.text [] entries children
    fun n _ => (hcan.fits hentries hchildren).child n
  have hroot : goal ≠ [] := by
    rintro rfl
    exact hcan.notInside List.nil_prefix
  obtain ⟨m, n, hconcat⟩ := (List.eq_nil_or_concat goal).resolve_left hroot
  obtain rfl : goal = m ++ [n] := by rw [hconcat, List.concat_eq_append]
  refine ⟨t.put (m ++ [n]) (.dir (Entry.layAll source.text target.text [] entries children).2),
    ?_, ?_, ?_⟩
  · simp only [overlay, hsource, htarget, hentries, hchildren, hall.errors, if_neg hroot]
  · intro r
    rw [look_append, entry?_put_self (look_of_look_append (by simp) hgoal), look_append,
      look_append, hentries, hchildren]
    exact Entry.LiesOver.dir (fun n => hall.unseen n List.not_mem_nil) r
  · intro l hl
    exact look_put_of_not_below hl _

end Tree
end JitLens.Files
