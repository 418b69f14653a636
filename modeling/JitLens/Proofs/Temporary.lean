import JitLens.Proofs.Bench
import JitLens.Proofs.Files.Frame
import JitLens.Proofs.Files.Listing
import Mathlib.Order.Bounds.Defs
/-!
# Temporary files

A temporary file is new: names that are taken are passed over, and a file is only made where nothing
stands.  The search for a name ends with the first one that is free.  There is one, since the names
differ in their numbers and no more of them can be taken than the directory has entries.
-/

namespace JitLens

open Files

namespace Files.Tree

variable {t u : Tree} {here l : Location} {p : Path} {content : Text.Bytes}

/-! ## Files where nothing stands -/

theorem create_eq_ok (hcreate : t.create here p content = .ok u) :
    ∃ l, t.locate here p = .ok l ∧ t.look l = none ∧ u = t.putFile l content false := by
  unfold create at hcreate
  split at hcreate
  · cases hcreate
  · next l hlocate =>
    split at hcreate
    · next hlook =>
      cases hcreate
      exact ⟨l, hlocate, hlook, rfl⟩
    · cases hcreate

theorem create_of_look (hlocate : t.locate here p = .ok l) (hlook : t.look l = none)
    (content : Text.Bytes) : t.create here p content = .ok (t.putFile l content false) := by
  simp only [create, hlocate, hlook]

/-- What is made where nothing stands is written there. -/
theorem write_of_create (hcreate : t.create here p content = .ok u) :
    t.write here p content = .ok u := by
  obtain ⟨l, hlocate, hlook, rfl⟩ := create_eq_ok hcreate
  simp only [write, hlocate, hlook]

theorem look_of_create (hparts : p.parts ≠ []) (hcreate : t.create here p content = .ok u) :
    KeepsDirs t u ∧ KeepsDirs u t ∧ ∃ l executable,
      u.locate here p = .ok l ∧ u.look l = some (.file content executable) :=
  look_of_write hparts (write_of_create hcreate)

theorem bytesAt_of_create (hcreate : t.create here p content = .ok u) (hne : p.spelled here ≠ l) :
    u.bytesAt l = t.bytesAt l :=
  bytesAt_of_write (write_of_create hcreate) hne

theorem look_of_holds_eq_false (hlocate : t.locate here p = .ok l)
    (hfree : t.holds here p = false) : t.look l = none := by
  simpa [holds, lookAt, hlocate] using hfree

/-! ## Numbers that are free -/

theorem le_firstFree (t : Tree) (here : Location) (path : Nat → Path) (tries n : Nat) :
    n ≤ t.firstFree here path tries n := by
  induction tries generalizing n with
  | zero => exact Nat.le_refl n
  | succ tries ih =>
      rw [firstFree]
      split
      · exact (Nat.le_succ n).trans (ih (n + 1))
      · exact Nat.le_refl n

theorem holds_of_lt_firstFree {path : Nat → Path} {tries n m : Nat} (hn : n ≤ m)
    (hm : m < t.firstFree here path tries n) : t.holds here (path m) = true := by
  induction tries generalizing n with
  | zero =>
      rw [firstFree] at hm
      omega
  | succ tries ih =>
      rw [firstFree] at hm
      split at hm
      · next hholds =>
        rcases Nat.eq_or_lt_of_le hn with rfl | hlt
        · exact hholds
        · exact ih hlt hm
      · omega

/-- Where the paths that are taken have different names, nothing stands at the one that is found
after as many tries as there are names. -/
theorem holds_firstFree {path : Nat → Path} {name : Nat → String}
    (hname : Function.Injective name) {names : List String} {n : Nat}
    (hnames : ∀ m, n ≤ m → t.holds here (path m) = true → name m ∈ names) :
    t.holds here (path (t.firstFree here path names.length n)) = false := by
  induction htries : names.length generalizing names n with
  | zero =>
      rw [List.length_eq_zero_iff] at htries
      subst htries
      rw [firstFree, Bool.eq_false_iff]
      exact fun hholds => List.not_mem_nil (hnames n (Nat.le_refl n) hholds)
  | succ tries ih =>
      rw [firstFree]
      split
      · next hholds =>
        have hmem := hnames n (Nat.le_refl n) hholds
        have hlength : (names.erase (name n)).length = tries := by
          rw [List.length_erase_of_mem hmem, htries, Nat.add_sub_cancel]
        -- The name that is taken is struck off, and the names to come differ from it.
        refine ih (fun m hm hholds' => ?_) hlength
        have hne : name m ≠ name n := fun heq => absurd (hname heq) (by omega)
        exact (List.mem_erase_of_ne hne).2 (hnames m (by omega) hholds')
      · next hfree => exact Bool.eq_false_iff.2 hfree

end Files.Tree

/-! ## Names with numbers -/

theorem toList_numberedName (stem ending : String) (n : Nat) :
    (numberedName stem ending n).toList =
      stem.toList ++ Nat.toDigits 10 n ++ ending.toList := by
  simp [numberedName, String.toList_append, Nat.toString_eq_repr, Nat.toList_repr]

theorem notMem_toDigits {c : Char} (hc : c.isDigit = false) (n : Nat) :
    c ∉ Nat.toDigits 10 n := by
  intro hmem
  rw [Nat.isDigit_of_mem_toDigits (by decide) (by decide) hmem] at hc
  cases hc

theorem numberedName_injective (stem ending : String) :
    Function.Injective (numberedName stem ending) := by
  intro n m hname
  have hlist := congrArg String.toList hname
  rw [toList_numberedName, toList_numberedName, List.append_cancel_right_eq,
    List.append_cancel_left_eq] at hlist
  rw [← Nat.ofDigitChars_ten_toDigits (n := n), hlist, Nat.ofDigitChars_ten_toDigits]

theorem any_isDigit_numberedName (stem ending : String) (n : Nat) :
    (numberedName stem ending n).toList.any Char.isDigit = true := by
  obtain ⟨c, hc⟩ := List.exists_mem_of_ne_nil _ (Nat.toDigits_ne_nil (b := 10) (n := n))
  refine List.any_eq_true.2 ⟨c, ?_, Nat.isDigit_of_mem_toDigits (by decide) (by decide) hc⟩
  rw [toList_numberedName]
  simp [hc]

/-- A name with a number is no name without a digit. -/
theorem numberedName_ne {s : String} (hs : s.toList.any Char.isDigit = false)
    (stem ending : String) (n : Nat) : numberedName stem ending n ≠ s := by
  rintro rfl
  rw [any_isDigit_numberedName] at hs
  cases hs

theorem holdsNull_numberedName {stem ending : String} (hstem : holdsNull stem = false)
    (hending : holdsNull ending = false) (n : Nat) :
    holdsNull (numberedName stem ending n) = false := by
  have hdigits := notMem_toDigits (c := '\x00') (by decide) n
  rw [holdsNull] at hstem hending ⊢
  rw [toList_numberedName]
  simp_all

theorem isName_numberedName {stem ending : String}
    (hstem : '/' ∉ stem.toList ∧ '\x00' ∉ stem.toList)
    (hending : '/' ∉ ending.toList ∧ '\x00' ∉ ending.toList) (n : Nat) :
    IsName (numberedName stem ending n) := by
  refine ⟨numberedName_ne (by decide) _ _ n, numberedName_ne (by decide) _ _ n,
    numberedName_ne (by decide) _ _ n, ?_, ?_⟩
  · rw [toList_numberedName]
    simp [hstem.1, hending.1, notMem_toDigits]
  · rw [toList_numberedName]
    simp [hstem.2, hending.2, notMem_toDigits]

theorem holdsNull_append {s s' : String} (hs : holdsNull s = false) (hs' : holdsNull s' = false) :
    holdsNull (s ++ s') = false := by
  rw [holdsNull] at hs hs' ⊢
  rw [String.toList_append]
  simp_all

theorem numbered_ne_nil (folder : Path) (stem ending : String) (n : Nat) :
    (numbered folder stem ending n).parts ≠ [] :=
  List.append_ne_nil_of_right_ne_nil _ (List.cons_ne_nil _ _)

theorem locate_numbered {t : Tree} {here l : Location} {folder : Path} {stem ending : String}
    (hlocate : t.locate here folder = .ok l) (hdir : t.look l = some .dir)
    (hstem : holdsNull stem = false) (hending : holdsNull ending = false) (n : Nat) :
    t.locate here (numbered folder stem ending n) = .ok (l ++ [numberedName stem ending n]) := by
  have hname : (numbered folder stem ending n).name = numberedName stem ending n := by
    simp [numbered, Path.entry, Path.name]
  have hparent : (numbered folder stem ending n).parent = folder := by
    simp [numbered, Path.entry, Path.parent]
  rw [← hname]
  apply Tree.locate_of_parent
  · rw [hname]
    exact numberedName_ne (by decide) stem ending n
  · rw [hname]
    exact numberedName_ne (by decide) stem ending n
  · rw [hname]
    exact holdsNull_numberedName hstem hending n
  · rwa [hparent]
  · exact hdir

/-! ## The next temporary file -/

/-- The next number is the least one not drawn yet under whose name nothing stands. -/
theorem Bench.isLeast_freeNumber (b : Bench) (folder : Path) (stem ending : String) :
    IsLeast {n | b.drawn < n ∧ b.files.holds b.here (numbered folder stem ending n) = false}
      (b.freeNumber folder stem ending) := by
  refine ⟨⟨Tree.le_firstFree _ _ _ _ _, ?_⟩, fun n hn => ?_⟩
  · obtain ⟨names, hlength, hnames⟩ := b.files.exists_names b.here folder
    unfold freeNumber
    rw [← hlength]
    refine Tree.holds_firstFree (numberedName_injective stem ending) fun n _ hholds => ?_
    exact hnames _ (Tree.mem_namesAt (numberedName_ne (by decide) stem ending n) hholds)
  · by_contra hlt
    have htaken := Tree.holds_of_lt_firstFree hn.1 (not_le.1 hlt)
    rw [hn.2] at htaken
    cases htaken

theorem Bench.holds_nextTemporary (b : Bench) (folder : Path) (stem ending : String) :
    b.files.holds b.here (b.nextTemporary folder stem ending) = false :=
  (b.isLeast_freeNumber folder stem ending).1.2

end JitLens
