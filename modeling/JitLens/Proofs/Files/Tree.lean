import JitLens.Files.Access
/-!
# What stands where

What stands at a location after an entry was put into a tree or taken out of it.  An operation
that puts nothing in the place of a directory leaves every directory where it is.
-/

namespace JitLens.Files

namespace Entry

/-! ## Entries -/

theorem get?_append (e : Entry) (l m : Location) :
    e.get? (l ++ m) = (e.get? l).bind fun f => f.get? m := by
  induction l generalizing e with
  | nil => simp
  | cons n l ih =>
      cases e with
      | file content executable => rfl
      | dir children =>
          simp only [List.cons_append, get?]
          cases child? children n with
          | none => rfl
          | some f => exact ih f

theorem get?_put_self (new : Entry) {e : Entry} {l : Location} {n : String}
    {children : List (String × Entry)} (hparent : e.get? l = some (.dir children)) :
    (put new e (l ++ [n])).get? (l ++ [n]) = some new := by
  induction l generalizing e with
  | nil =>
      rw [get?_nil, Option.some.injEq] at hparent
      simp [hparent, put, get?]
  | cons k l ih =>
      cases e with
      | file content executable => simp [get?] at hparent
      | dir siblings =>
          rw [get?] at hparent
          cases hchild : child? siblings k with
          | none => simp [hchild] at hparent
          | some f =>
              have hrest := ih (e := f) (by simpa [hchild] using hparent)
              obtain ⟨i, m, hm⟩ := List.exists_cons_of_ne_nil
                (List.append_ne_nil_of_right_ne_nil l (List.cons_ne_nil n []))
              rw [hm] at hrest
              simp [hm, put, hchild, get?, hrest]

theorem item_put (new e : Entry) (n : String) (l : Location) :
    (put new e (n :: l)).item = e.item := by
  cases e with
  | file content executable => rfl
  | dir children =>
      cases l with
      | nil => rfl
      | cons m l =>
          rw [put]
          cases child? children n <;> rfl

theorem item_remove (e : Entry) (l : Location) : (e.remove l).item = e.item := by
  cases e with
  | file content executable => cases l <;> rfl
  | dir children =>
      match l with
      | [] => rfl
      | [n] => rfl
      | n :: m :: l =>
          rw [remove]
          cases child? children n <;> rfl

theorem item?_put_of_not_below (new : Entry) {e : Entry} {l m : Location} (hlm : ¬ l <+: m) :
    ((put new e l).get? m).map item = (e.get? m).map item := by
  induction l generalizing e m with
  | nil => exact absurd List.nil_prefix hlm
  | cons n l ih =>
      cases m with
      | nil => simp [item_put]
      | cons k m =>
          cases e with
          | file content executable => rfl
          | dir children =>
              cases l with
              | nil =>
                  have hne : n ≠ k := by
                    rintro rfl
                    exact hlm (by simp)
                  simp [put, get?, hne]
              | cons i l =>
                  rw [put]
                  cases hchild : child? children n with
                  | none => rfl
                  | some f =>
                      by_cases hnk : n = k
                      · subst hnk
                        have hrest := ih (e := f) (m := m) (by simpa using hlm)
                        simpa [get?, hchild] using hrest
                      · simp [get?, hnk]

theorem item?_remove_of_not_below {e : Entry} {l m : Location} (hlm : ¬ l <+: m) :
    ((e.remove l).get? m).map item = (e.get? m).map item := by
  induction l generalizing e m with
  | nil => exact absurd List.nil_prefix hlm
  | cons n l ih =>
      cases m with
      | nil => simp [item_remove]
      | cons k m =>
          cases e with
          | file content executable => rfl
          | dir children =>
              cases l with
              | nil =>
                  have hne : n ≠ k := by
                    rintro rfl
                    exact hlm (by simp)
                  simp [remove, get?, child?_dropChild, hne]
              | cons i l =>
                  rw [remove]
                  cases hchild : child? children n with
                  | none => rfl
                  | some f =>
                      by_cases hnk : n = k
                      · subst hnk
                        have hrest := ih (e := f) (m := m) (by simpa using hlm)
                        simpa [get?, hchild] using hrest
                      · simp [get?, hnk]

theorem get?_remove_append {e : Entry} {l : Location} (hl : l ≠ []) (m : Location) :
    (e.remove l).get? (l ++ m) = none := by
  induction l generalizing e with
  | nil => exact absurd rfl hl
  | cons n l ih =>
      cases e with
      | file content executable => rfl
      | dir children =>
          cases l with
          | nil => simp [remove, get?, child?_dropChild]
          | cons i l =>
              rw [remove]
              cases hchild : child? children n with
              | none => simp [get?, hchild]
              | some f =>
                  have hrest := ih (e := f) (List.cons_ne_nil i l)
                  simpa [get?] using hrest

end Entry

namespace Tree

/-! ## Trees -/

theorem look_nil (t : Tree) : t.look [] = some .dir := by
  simp [look, entry?, root, Entry.item]

/-- What stands below something stands below a directory. -/
theorem look_of_look_append {t : Tree} {l m : Location} {i : Item} (hm : m ≠ [])
    (hlook : t.look (l ++ m) = some i) : t.look l = some .dir := by
  obtain ⟨n, m, rfl⟩ := List.exists_cons_of_ne_nil hm
  rw [look, entry?, Entry.get?_append] at hlook
  cases hentry : t.root.get? l with
  | none => simp [hentry] at hlook
  | some e =>
      cases e with
      | file content executable => simp [hentry, Entry.get?] at hlook
      | dir children => simp [look, entry?, hentry, Entry.item]

theorem root_ofRoot {e : Entry} (he : e.item = .dir) : (ofRoot e).root = e := by
  cases e with
  | file content executable => exact absurd he (by simp [Entry.item])
  | dir children => rfl

theorem entry?_put_self {t : Tree} {l : Location} {n : String} (hparent : t.look l = some .dir)
    (e : Entry) : entry? (t.put (l ++ [n]) e) (l ++ [n]) = some e := by
  have hroot : (Entry.put e t.root (l ++ [n])).item = .dir := by
    obtain ⟨i, m, hm⟩ := List.exists_cons_of_ne_nil
      (List.append_ne_nil_of_right_ne_nil l (List.cons_ne_nil n []))
    rw [hm, Entry.item_put]
    rfl
  rw [look, entry?] at hparent
  cases hentry : t.root.get? l with
  | none => simp [hentry] at hparent
  | some f =>
      cases f with
      | file content executable => simp [hentry, Entry.item] at hparent
      | dir children =>
          rw [put, if_neg (by simp), entry?, root_ofRoot hroot, Entry.get?_put_self e hentry]

theorem look_put_self {t : Tree} {l : Location} {n : String} (hparent : t.look l = some .dir)
    (e : Entry) : (t.put (l ++ [n]) e).look (l ++ [n]) = some e.item := by
  rw [look, entry?_put_self hparent]
  rfl

theorem look_put_of_not_below {t : Tree} {l m : Location} (hlm : ¬ l <+: m) (e : Entry) :
    (t.put l e).look m = t.look m := by
  obtain ⟨n, l, rfl⟩ := List.exists_cons_of_ne_nil
    (show l ≠ [] by rintro rfl; exact hlm List.nil_prefix)
  have hroot : (Entry.put e t.root (n :: l)).item = .dir := by
    rw [Entry.item_put]
    rfl
  rw [put, if_neg (by simp), look, entry?, root_ofRoot hroot, Entry.item?_put_of_not_below e hlm]
  rfl

theorem look_remove_of_not_below {t : Tree} {l m : Location} (hlm : ¬ l <+: m) :
    (t.remove l).look m = t.look m := by
  have hroot : (t.root.remove l).item = .dir := by
    rw [Entry.item_remove]
    rfl
  rw [remove, look, entry?, root_ofRoot hroot, Entry.item?_remove_of_not_below hlm]
  rfl

theorem look_remove_append {t : Tree} {l : Location} (hl : l ≠ []) (m : Location) :
    (t.remove l).look (l ++ m) = none := by
  have hroot : (t.root.remove l).item = .dir := by
    rw [Entry.item_remove]
    rfl
  rw [remove, look, entry?, root_ofRoot hroot, Entry.get?_remove_append hl]
  rfl

/-! ## Directories that stay -/

/-- Every directory of the first tree is one of the second. -/
def KeepsDirs (t t' : Tree) : Prop :=
  ∀ l, t.look l = some .dir → t'.look l = some .dir

namespace KeepsDirs

variable {t t' t'' : Tree}

theorem refl (t : Tree) : KeepsDirs t t := fun _ hl => hl

theorem trans (h : KeepsDirs t t') (h' : KeepsDirs t' t'') : KeepsDirs t t'' :=
  fun l hl => h' l (h l hl)

theorem not_below {l m : Location} (hl : t.look l ≠ some .dir) (hm : t.look m = some .dir) :
    ¬ l <+: m := by
  rintro ⟨k, rfl⟩
  cases k with
  | nil => exact hl (by simpa using hm)
  | cons n k => exact hl (look_of_look_append (by simp) hm)

/-- Nothing that is put where no directory stands hides one. -/
theorem put {l : Location} (hl : t.look l ≠ some .dir) (e : Entry) :
    KeepsDirs t (t.put l e) := by
  intro m hm
  rw [look_put_of_not_below (not_below hl hm)]
  exact hm

theorem remove {l : Location} (hl : t.look l ≠ some .dir) : KeepsDirs t (t.remove l) := by
  intro m hm
  rw [look_remove_of_not_below (not_below hl hm)]
  exact hm

/-- A file that is put into a directory brings no new directory. -/
theorem of_putFile {l : Location} {n : String} (hparent : t.look l = some .dir)
    (content : Text.Bytes) (executable : Bool) :
    KeepsDirs (t.putFile (l ++ [n]) content executable) t := by
  intro m hm
  by_cases hprefix : l ++ [n] <+: m
  · obtain ⟨k, rfl⟩ := hprefix
    have hfile : (t.putFile (l ++ [n]) content executable).look (l ++ [n]) =
        some (.file content executable) := look_put_self hparent _
    have hdir : (t.putFile (l ++ [n]) content executable).look (l ++ [n]) = some .dir := by
      cases k with
      | nil => simpa using hm
      | cons i k => exact look_of_look_append (by simp) hm
    rw [hfile] at hdir
    exact absurd hdir (by simp)
  · rwa [putFile, look_put_of_not_below hprefix] at hm

theorem of_remove {l : Location} (hl : l ≠ []) : KeepsDirs (t.remove l) t := by
  intro m hm
  by_cases hprefix : l <+: m
  · obtain ⟨k, rfl⟩ := hprefix
    rw [look_remove_append hl] at hm
    exact absurd hm (by simp)
  · rwa [look_remove_of_not_below hprefix] at hm

end KeepsDirs

end Tree
end JitLens.Files
