import JitLens.Framework
import JitLens.Proofs.Loader.Install
/-!
# Directories of the cache

The directory of a key is named by the three parts of the key with a bar between any two of them.
It lies right in the root of the cache if no part has a separator of paths in it.  The bars do not
tell the parts apart, for the parts can have bars of their own: keys whose parts fall into the same
pieces at these bars share a directory.  Two keys that do not share their directory are those that
have as many bars as each other in two of the parts, unless they are the same.
-/

namespace JitLens

open Files

namespace Text

variable {sep : Char} {cs ds : List Char}

theorem length_splitOn (sep : Char) (cs : List Char) :
    (splitOn sep cs).length = cs.count sep + 1 := by
  induction cs with
  | nil => rfl
  | cons c cs ih =>
      rw [splitOn]
      by_cases hc : c = sep
      · rw [if_pos hc, List.length_cons, ih, hc, List.count_cons_self]
      · rw [if_neg hc, List.count_cons_of_ne hc, ← ih]
        cases hsplit : splitOn sep cs with
        | nil => exact absurd hsplit (splitOn_ne_nil sep cs)
        | cons l ls => rfl

theorem splitOn_inj : splitOn sep cs = splitOn sep ds ↔ cs = ds := by
  constructor
  · intro hsplit
    rw [← joinWith_splitOn sep cs, hsplit, joinWith_splitOn]
  · exact congrArg (splitOn sep)

/-- A character that is no separator is in one of the pieces. -/
theorem exists_mem_splitOn {c : Char} (hc : c ∈ cs) (hne : c ≠ sep) :
    ∃ l ∈ splitOn sep cs, c ∈ l := by
  induction cs with
  | nil => cases hc
  | cons d cs ih =>
      rw [splitOn]
      split
      · next hd =>
        have hrest : c ∈ cs := (List.mem_cons.1 hc).resolve_left (hd ▸ hne)
        obtain ⟨l, hl, hcl⟩ := ih hrest
        exact ⟨l, List.mem_cons_of_mem _ hl, hcl⟩
      · cases hsplit : splitOn sep cs with
        | nil => exact absurd hsplit (splitOn_ne_nil sep cs)
        | cons m ms =>
            rw [hsplit] at ih
            rcases List.mem_cons.1 hc with rfl | hrest
            · exact ⟨c :: m, List.mem_cons_self, List.mem_cons_self⟩
            · obtain ⟨l, hl, hcl⟩ := ih hrest
              rcases List.mem_cons.1 hl with rfl | hl
              · exact ⟨d :: l, List.mem_cons_self, List.mem_cons_of_mem d hcl⟩
              · exact ⟨l, List.mem_cons_of_mem _ hl, hcl⟩

end Text

namespace Loader

/-- No part of the key has a separator of paths in it. -/
structure Key.Plain (k : Key) : Prop where
  version : '/' ∉ k.version.toList
  framework : '/' ∉ k.framework.toList
  sdk : '/' ∉ k.sdk.toList

/-- How many of the bars that stand between the parts of a name are in a text. -/
def bars (s : String) : Nat :=
  s.toList.count '_'

/-- What stands between the bars of the three parts. -/
def Key.pieces (k : Key) : List (List Char) :=
  Text.splitOn '_' k.version.toList ++
    (Text.splitOn '_' k.framework.toList ++ Text.splitOn '_' k.sdk.toList)

/-- Two keys have as many bars as each other in two of their parts. -/
def Key.Aligned (k k' : Key) : Prop :=
  bars k.version = bars k'.version ∧ bars k.framework = bars k'.framework ∨
  bars k.version = bars k'.version ∧ bars k.sdk = bars k'.sdk ∨
  bars k.framework = bars k'.framework ∧ bars k.sdk = bars k'.sdk

namespace Key

variable {k k' : Key}

/-! ## Names -/

theorem toList_name (k : Key) :
    k.name.toList = k.version.toList ++ '_' :: (k.framework.toList ++ '_' :: k.sdk.toList) := by
  simp [name]

theorem splitOn_name (k : Key) : Text.splitOn '_' k.name.toList = k.pieces := by
  rw [toList_name, Text.splitOn_append_cons, Text.splitOn_append_cons, pieces]

theorem name_eq_iff : k.name = k'.name ↔ k.pieces = k'.pieces := by
  rw [← splitOn_name, ← splitOn_name, Text.splitOn_inj, String.toList_inj]

theorem length_pieces (k : Key) :
    k.pieces.length = bars k.version + bars k.framework + bars k.sdk + 3 := by
  simp only [pieces, List.length_append, Text.length_splitOn, bars]
  omega

/-- The pieces are told apart by the parts that they come from. -/
theorem eq_of_pieces (hpieces : k.pieces = k'.pieces) (haligned : k.Aligned k') : k = k' := by
  have hlength := congrArg List.length hpieces
  rw [length_pieces, length_pieces] at hlength
  have hbars : bars k.version = bars k'.version ∧ bars k.framework = bars k'.framework := by
    unfold Aligned at haligned
    omega
  obtain ⟨hversion, hrest⟩ := List.append_inj hpieces (by
    rw [Text.length_splitOn, Text.length_splitOn]
    exact congrArg (· + 1) hbars.1)
  obtain ⟨hframework, hsdk⟩ := List.append_inj hrest (by
    rw [Text.length_splitOn, Text.length_splitOn]
    exact congrArg (· + 1) hbars.2)
  rw [Text.splitOn_inj, String.toList_inj] at hversion hframework hsdk
  cases k
  cases k'
  simp_all

/-! ## Directories -/

theorem bar_mem_name (k : Key) : '_' ∈ k.name.toList := by
  simp [toList_name]

theorem name_ne (k : Key) {s : String} (hs : '_' ∉ s.toList) : k.name ≠ s := by
  rintro rfl
  exact hs k.bar_mem_name

theorem Plain.child_eq (hplain : k.Plain) (root : Path) :
    root.child k.name = ⟨root.anchor, root.parts ++ [k.name]⟩ := by
  have hsep : '/' ∉ k.name.toList := by
    simp [toList_name, hplain.version, hplain.framework, hplain.sdk]
  have hread := Path.ofString_of_notMem (k.name_ne (by decide)) (k.name_ne (by decide)) hsep
  rw [Path.child, hread]
  rfl

theorem partsOf_name_ne_nil (k : Key) : Path.partsOf k.name.toList ≠ [] := by
  obtain ⟨l, hl, hbar⟩ := Text.exists_mem_splitOn k.bar_mem_name (by decide : '_' ≠ '/')
  have hmem : String.ofList l ∈ Path.partsOf k.name.toList := by
    rw [Path.partsOf, List.mem_filter]
    refine ⟨List.mem_map_of_mem hl, ?_⟩
    have hne (s : String) (hs : '_' ∉ s.toList) : String.ofList l ≠ s := by
      rintro rfl
      exact hs (by simpa using hbar)
    simp [hne "" (by decide), hne "." (by decide)]
  exact List.ne_nil_of_mem hmem

/-- The directory of a key has a name of its own. -/
theorem parts_child_ne_nil (k : Key) (root : Path) : (root.child k.name).parts ≠ [] := by
  have hne := k.partsOf_name_ne_nil
  rw [Path.child, Path.join]
  split
  · exact hne
  · exact List.append_ne_nil_of_right_ne_nil _ hne

theorem child_of_relative (hversion : k.version.toList.head? ≠ some '/') (root : Path) :
    root.child k.name = ⟨root.anchor, root.parts ++ Path.partsOf k.name.toList⟩ := by
  have hhead : k.name.toList.head? ≠ some '/' := by
    rw [toList_name]
    cases hlist : k.version.toList with
    | nil => simp
    | cons c cs => simpa [hlist] using hversion
  rw [Path.child, Path.ofString, Path.anchorOf_of_head hhead]
  rfl

/-- A version that is an absolute path leads there from any root. -/
theorem child_of_absolute (hversion : k.version.toList.head? = some '/') (root : Path) :
    root.child k.name = Path.ofString k.name := by
  obtain ⟨cs, hlist⟩ : ∃ cs, k.name.toList = '/' :: cs := by
    rw [toList_name]
    cases hversions : k.version.toList with
    | nil => simp [hversions] at hversion
    | cons c cs =>
        obtain rfl : c = '/' := by simpa [hversions] using hversion
        exact ⟨_, List.cons_append⟩
  have habsolute : (Path.ofString k.name).isAbsolute = true := by
    rw [Path.ofString, hlist, Path.isAbsolute]
    unfold Path.anchorOf
    split
    · rfl
    · rfl
    · rfl
    · next hnone => exact absurd rfl (hnone cs)
  rw [Path.child, Path.join, if_pos habsolute]

/-- A directory lies right in the root if only one component of the name counts. -/
theorem parent_child_iff (hversion : k.version.toList.head? ≠ some '/') (root : Path) :
    (root.child k.name).parent = root ↔ (Path.partsOf k.name.toList).length = 1 := by
  have hne := k.partsOf_name_ne_nil
  have hparent : (root.child k.name).parent =
      ⟨root.anchor, root.parts ++ (Path.partsOf k.name.toList).dropLast⟩ := by
    rw [child_of_relative hversion, Path.parent, List.dropLast_append_of_ne_nil hne]
  have hlength : 0 < (Path.partsOf k.name.toList).length := List.length_pos_iff.2 hne
  rw [hparent]
  constructor
  · intro heq
    have hparts := congrArg (fun p : Path => p.parts.length) heq
    simp only [List.length_append, List.length_dropLast] at hparts
    omega
  · intro hone
    have hnil : (Path.partsOf k.name.toList).dropLast = [] := by
      rw [← List.length_eq_zero_iff, List.length_dropLast]
      omega
    rw [hnil, List.append_nil]

end Key

/-- Where the directories of keys are, and which keys share one. -/
structure KeyDirectories (root : Path) : Prop where
  direct : ∀ k : Key, k.Plain →
    root.child k.name = ⟨root.anchor, root.parts ++ [k.name]⟩ ∧ (root.child k.name).parent = root
  /-- A version that starts at the root of all files leads there. -/
  elsewhere : ∀ k : Key, k.version.toList.head? = some '/' →
    root.child k.name = Path.ofString k.name
  /-- From any other one the directory is a child of the root only if one component counts. -/
  direct_iff : ∀ k : Key, k.version.toList.head? ≠ some '/' →
    ((root.child k.name).parent = root ↔ (Path.partsOf k.name.toList).length = 1)
  same_iff : ∀ k k' : Key, k.Plain → k'.Plain →
    (root.child k.name = root.child k'.name ↔ k.pieces = k'.pieces)
  /-- Of keys that share a directory no two have their bars in the same parts. -/
  apart : ∀ k k' : Key, k.Plain → k'.Plain → k.Aligned k' → k ≠ k' →
    root.child k.name ≠ root.child k'.name
  /-- A piece at the end of the framework can as well stand at the start of what comes next. -/
  shared : ∀ version framework piece sdk : String,
    let k : Key := ⟨version, framework ++ "_" ++ piece, sdk⟩
    let k' : Key := ⟨version, framework, piece ++ "_" ++ sdk⟩
    k ≠ k' ∧ root.child k.name = root.child k'.name

theorem keyDirectories (root : Path) : KeyDirectories root where
  direct k hplain := by
    have hchild := hplain.child_eq root
    refine ⟨hchild, ?_⟩
    rw [hchild]
    simp [Path.parent]
  elsewhere k hversion := k.child_of_absolute hversion root
  direct_iff k hversion := k.parent_child_iff hversion root
  same_iff k k' hplain hplain' := by
    rw [hplain.child_eq, hplain'.child_eq, ← Key.name_eq_iff]
    simp
  apart k k' hplain hplain' haligned hne hsame := by
    rw [hplain.child_eq, hplain'.child_eq] at hsame
    have hname : k.name = k'.name := by simpa using hsame
    exact hne (Key.eq_of_pieces (Key.name_eq_iff.1 hname) haligned)
  shared version framework piece sdk := by
    refine ⟨?_, ?_⟩
    · intro heq
      have hlength := congrArg (fun k : Key => k.framework.toList.length) heq
      simp at hlength
    · have hname : (⟨version, framework ++ "_" ++ piece, sdk⟩ : Key).name =
          (⟨version, framework, piece ++ "_" ++ sdk⟩ : Key).name := by
        simp [Key.name, String.append_assoc]
      rw [hname]

/-- Two frameworks that a run can handle share a directory, and a version that climbs up the tree
leaves the root. -/
theorem keyDirectories_shared :
    let root : Path := ⟨.relative, ["cache"]⟩
    let k : Key := ⟨"1", "net8.0_a", "9"⟩
    let k' : Key := ⟨"1", "net8.0", "a_9"⟩
    let up : Key := ⟨"../v/1", "net8.0", "9"⟩
    (∀ f ∈ ["net8.0_a", "net8.0"],
      Framework.normalize f = f ∧ Framework.isSupported f = .ok true) ∧
      k ≠ k' ∧ root.child k.name = root.child k'.name ∧ (root.child up.name).parent ≠ root := by
  intro root k k' up
  have hroot := keyDirectories root
  obtain ⟨hne, hsame⟩ := hroot.shared "1" "net8.0" "a" "9"
  refine ⟨?_, hne, hsame, ?_⟩
  · have hlong : Framework.isSupported "net8.0_a" = .ok true := by rfl
    have hshort : Framework.isSupported "net8.0" = .ok true := by rfl
    intro f hf
    simp only [List.mem_cons, List.not_mem_nil, or_false] at hf
    rcases hf with rfl | rfl
    · exact ⟨by decide +kernel, hlong⟩
    · exact ⟨by decide +kernel, hshort⟩
  · intro hparent
    have hone := (hroot.direct_iff up (by decide)).1 hparent
    exact absurd hone (by decide)

end Loader
end JitLens
