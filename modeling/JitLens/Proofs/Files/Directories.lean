import JitLens.Proofs.Files.Frame
/-!
# Directories on the way

Making a directory and those on the way to it changes nothing but that such directories come up
where nothing stood, also where it fails half-way.
-/

namespace JitLens.Files.Tree

variable {t u v : Tree} {here l : Location} {p : Path}

/-- A location looks as before, or a directory on the way to a path has come up where nothing
stood. -/
def PavedAt (here : Location) (p : Path) (t u : Tree) (l : Location) : Prop :=
  u.look l = t.look l ∨
    t.look l = none ∧ u.look l = some .dir ∧
      ∃ ns, ns <+: p.parts ∧ (⟨p.anchor, ns⟩ : Path).spelled here = l

/-- No location looks different but for new directories on the way to a path. -/
def Paved (here : Location) (p : Path) (t u : Tree) : Prop :=
  ∀ l, PavedAt here p t u l

theorem Paved.refl (t : Tree) : Paved here p t t :=
  fun _ => .inl rfl

theorem Paved.trans (htu : Paved here p t u) (huv : Paved here p u v) : Paved here p t v := by
  intro l
  rcases htu l with hsame | ⟨hnone, hdir, hway⟩
  · rcases huv l with hsame' | ⟨hnone', hdir', hway'⟩
    · exact .inl (hsame'.trans hsame)
    · exact .inr ⟨hsame ▸ hnone', hdir', hway'⟩
  · rcases huv l with hsame' | ⟨hnone', -, -⟩
    · exact .inr ⟨hnone, hsame'.trans hdir, hway⟩
    · rw [hdir] at hnone'
      cases hnone'

/-- Locations that look the same afterwards are paved as they were. -/
theorem PavedAt.congr (h : PavedAt here p t u l) (hlook : v.look l = u.look l) :
    PavedAt here p t v l := by
  unfold PavedAt
  rwa [hlook]

theorem paved_of_makeDir {ns : List String} (hns : ns <+: p.parts)
    (hmake : t.makeDir here ⟨p.anchor, ns⟩ = .ok u) : Paved here p t u := by
  obtain ⟨m, hlocate, hnone, rfl⟩ := makeDir_eq_ok hmake
  intro l
  by_cases hl : m = l
  · subst hl
    rcases look_putDir_self hnone with hdir | hsame
    · exact .inr ⟨hnone, hdir, ns, hns, spelled_of_locate hlocate⟩
    · exact .inl (hsame.trans hnone.symm)
  · exact .inl (look_putDir_of_ne (by simp [hnone]) hl)

theorem paved_of_makeDirs (hmake : t.makeDirs here p = .ok u) : Paved here p t u := by
  apply related_of_makeDirsFrom Paved.refl Paved.trans _ hmake
  intro t u ns hns hmakeDir
  rw [List.reverse_reverse] at hns
  exact paved_of_makeDir hns hmakeDir

theorem paved_partDirs (t : Tree) (here : Location) (p : Path) :
    Paved here p t (t.partDirs here p) := by
  apply related_of_partDirsFrom Paved.refl Paved.trans
  intro t u ns hns hmakeDir
  rw [List.reverse_reverse] at hns
  exact paved_of_makeDir hns hmakeDir

/-- The way to a name leads through directories. -/
theorem isDir_of_locate {anchor : Anchor} {ns ms : List String} (hms : ms ≠ [])
    (hlocate : t.locate here ⟨anchor, ns ++ ms⟩ = .ok l) : t.isDir here ⟨anchor, ns⟩ = true := by
  obtain ⟨n, ms, rfl⟩ := List.exists_cons_of_ne_nil hms
  obtain ⟨hnull, hwalk⟩ := locate_eq_ok hlocate
  rw [List.any_append, Bool.or_eq_false_iff] at hnull
  have habsolute : (⟨anchor, ns ++ n :: ms⟩ : Path).isAbsolute =
      (⟨anchor, ns⟩ : Path).isAbsolute := rfl
  rw [habsolute] at hwalk
  dsimp only at hwalk
  rw [walk_append] at hwalk
  cases hfirst : t.walk (if (⟨anchor, ns⟩ : Path).isAbsolute then [] else here) ns with
  | error e =>
      rw [hfirst] at hwalk
      cases hwalk
  | ok m =>
      rw [hfirst, Except.bind, walk] at hwalk
      refine isDir_iff.2 ⟨m, locate_of_walk hnull.1 hfirst, ?_⟩
      split at hwalk
      · cases hwalk
      · cases hwalk
      · next hdir => exact hdir

end JitLens.Files.Tree
