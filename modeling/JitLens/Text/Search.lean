/-!
# Searching inside texts

Occurrences of one text inside another: cutting at the first one, replacing all of them, and
asking whether there is one.
-/

namespace JitLens.Text

/-- What is left of `cs` behind the leading text `pre`, if `cs` starts with it. -/
def stripLeading : List Char → List Char → Option (List Char)
  | [], cs => some cs
  | _ :: _, [] => none
  | p :: pre, c :: cs => if p = c then stripLeading pre cs else none

def startsWith (pre cs : List Char) : Bool :=
  (stripLeading pre cs).isSome

def endsWith (suf cs : List Char) : Bool :=
  startsWith suf.reverse cs.reverse

/-- The texts before and behind the first occurrence of `sep`. -/
def cutAt (sep : List Char) : List Char → Option (List Char × List Char)
  | [] => if sep.isEmpty then some ([], []) else none
  | c :: cs =>
    match stripLeading sep (c :: cs) with
    | some rest => some ([], rest)
    | none => (cutAt sep cs).map fun (before, behind) => (c :: before, behind)

/-- Whether `sub` occurs in the text. -/
def contains (sub cs : List Char) : Bool :=
  (cutAt sub cs).isSome

/-- Replaces the occurrences of `old`, from the left and without overlap; `skip` characters of
an occurrence are still to be passed over. -/
def replaceFrom (old new : List Char) : Nat → List Char → List Char
  | _, [] => []
  | skip + 1, _ :: cs => replaceFrom old new skip cs
  | 0, c :: cs =>
    if startsWith old (c :: cs) then new ++ replaceFrom old new (old.length - 1) cs
    else c :: replaceFrom old new 0 cs

/-- The text with every occurrence of `old`, which is not empty, replaced by `new`. -/
def replaceAll (old new cs : List Char) : List Char :=
  replaceFrom old new 0 cs

theorem stripLeading_append (pre cs : List Char) : stripLeading pre (pre ++ cs) = some cs := by
  induction pre with
  | nil => rfl
  | cons p pre ih => simpa [stripLeading] using ih

theorem eq_append_of_stripLeading {pre cs rest : List Char} (h : stripLeading pre cs = some rest) :
    cs = pre ++ rest := by
  induction pre generalizing cs with
  | nil => simp_all [stripLeading]
  | cons p pre ih =>
    cases cs with
    | nil => simp [stripLeading] at h
    | cons c cs =>
      simp only [stripLeading] at h
      split at h
      · rename_i hp
        rw [ih h, hp, List.cons_append]
      · simp at h

theorem startsWith_iff {pre cs : List Char} : startsWith pre cs = true ↔ ∃ r, cs = pre ++ r := by
  constructor
  · intro h
    obtain ⟨r, hr⟩ := Option.isSome_iff_exists.1 h
    exact ⟨r, eq_append_of_stripLeading hr⟩
  · rintro ⟨r, rfl⟩
    simp [startsWith, stripLeading_append]

theorem contains_iff {sub cs : List Char} : contains sub cs = true ↔ sub <:+: cs := by
  unfold contains
  induction cs with
  | nil => cases sub <;> simp [cutAt]
  | cons c cs ih =>
    have hprefix : sub <+: c :: cs ↔ (stripLeading sub (c :: cs)).isSome = true := by
      rw [← startsWith, startsWith_iff]
      exact exists_congr fun r => eq_comm
    rw [List.infix_cons_iff, hprefix, ← ih, cutAt]
    cases stripLeading sub (c :: cs) with
    | some rest => simp
    | none => simp

/-- Cutting a text loses nothing but the separator. -/
theorem eq_append_of_cutAt {sep cs before behind : List Char}
    (h : cutAt sep cs = some (before, behind)) : cs = before ++ sep ++ behind := by
  induction cs generalizing before with
  | nil => simp_all [cutAt]
  | cons c cs ih =>
    simp only [cutAt] at h
    split at h
    · rename_i rest hr
      simp only [Option.some.injEq, Prod.mk.injEq] at h
      rw [← h.1, ← h.2]
      simpa using eq_append_of_stripLeading hr
    · obtain ⟨⟨b, r⟩, hb, he⟩ := Option.map_eq_some_iff.1 h
      simp only [Prod.mk.injEq] at he
      obtain ⟨rfl, rfl⟩ := he
      rw [ih hb]
      simp

theorem cutAt_eq_none_iff {sep cs : List Char} : cutAt sep cs = none ↔ ¬ sep <:+: cs := by
  rw [← contains_iff, contains, Option.not_isSome_iff_eq_none]

/-- A separator can begin earlier in a text only where its last character is still to come. -/
theorem append_dropLast_prefix (before sep behind : List Char) :
    before ++ sep.dropLast <+: before ++ sep ++ behind := by
  rw [List.append_assoc, List.prefix_append_right_inj]
  exact (List.dropLast_prefix sep).trans (List.prefix_append sep behind)

/-- A text is cut where the separator stands first. -/
theorem not_infix_of_cutAt {sep cs before behind : List Char} (hsep : sep ≠ [])
    (h : cutAt sep cs = some (before, behind)) : ¬ sep <:+: before ++ sep.dropLast := by
  have hlength : 0 < sep.length := List.length_pos_iff.2 hsep
  induction cs generalizing before with
  | nil => simp [cutAt, hsep] at h
  | cons c cs ih =>
    simp only [cutAt] at h
    split at h
    · simp only [Option.some.injEq, Prod.mk.injEq] at h
      rw [← h.1, List.nil_append]
      intro hinfix
      have hle := hinfix.length_le
      rw [List.length_dropLast] at hle
      omega
    · rename_i hnone
      obtain ⟨⟨b, r⟩, hcut, he⟩ := Option.map_eq_some_iff.1 h
      simp only [Prod.mk.injEq] at he
      obtain ⟨rfl, rfl⟩ := he
      rw [List.cons_append, List.infix_cons_iff, not_or]
      refine ⟨fun hprefix => ?_, ih hcut⟩
      -- What the separator is a prefix of here is itself one of the whole text.
      have hwhole : c :: (b ++ sep.dropLast) <+: c :: cs := by
        rw [eq_append_of_cutAt hcut, List.cons_prefix_cons]
        exact ⟨rfl, append_dropLast_prefix b sep r⟩
      obtain ⟨rest, hrest⟩ := hprefix.trans hwhole
      rw [← hrest, stripLeading_append] at hnone
      cases hnone

/-- A text is cut at a separator that does not begin earlier. -/
theorem cutAt_append {sep before : List Char} (hfirst : ¬ sep <:+: before ++ sep.dropLast)
    (behind : List Char) : cutAt sep (before ++ sep ++ behind) = some (before, behind) := by
  induction before with
  | nil =>
    cases sep with
    | nil => exact absurd List.nil_infix hfirst
    | cons s sep =>
      have hstrip := stripLeading_append (s :: sep) behind
      rw [List.cons_append] at hstrip
      rw [List.nil_append, List.cons_append, cutAt, hstrip]
  | cons c before ih =>
    rw [List.cons_append, List.infix_cons_iff, not_or] at hfirst
    have hstrip : stripLeading sep (c :: (before ++ sep ++ behind)) = none := by
      rw [← Option.not_isSome_iff_eq_none, ← startsWith, startsWith_iff]
      rintro ⟨rest, hrest⟩
      -- Of two prefixes of the same text the shorter one, the separator, is a prefix of the other.
      have hwhole : c :: (before ++ sep.dropLast) <+: c :: (before ++ sep ++ behind) :=
        List.cons_prefix_cons.2 ⟨rfl, append_dropLast_prefix before sep behind⟩
      refine hfirst.1 (List.prefix_of_prefix_length_le ⟨rest, hrest.symm⟩ hwhole ?_)
      rw [List.length_cons, List.length_append, List.length_dropLast]
      omega
    rw [List.cons_append, List.cons_append, cutAt, hstrip, ih hfirst.2]
    rfl

end JitLens.Text
