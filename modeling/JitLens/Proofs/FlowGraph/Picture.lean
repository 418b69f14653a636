import JitLens.Proofs.FlowGraph.LastDrawing
import JitLens.Proofs.Run.Endings
import JitLens.Proofs.Temporary
/-!
# The file of a picture

An empty file is made for the picture of a drawing before the tool is called that draws it.  A
picture that is returned is that file, and it is not empty.  If none is returned, the file is gone,
unless the call was interrupted: then it is left behind as the tool left it, and nothing returned
names it.
-/

namespace JitLens.FlowGraph

open Files JitLens.Action

variable {tools : Tools} {i : Invocation} {name program : String} {picture : Path}
  {b b' : Bench}

/-! ## Calling the tool -/

/-- The part of rendering that comes once there is a file for the picture. -/
def drawInto (tools : Tools) (i : Invocation) (picture : Path) : Action (Except String Path) := do
  let result ← Action.call tools i
  Action.checkCancelled
  let b ← get
  if !b.files.holds b.here picture || b.files.isEmptyFile b.here picture then
    Action.change fun t here => t.discard here picture
    return .error (noPicture result)
  else return .ok picture

/-- A call that fails, or during which a request to cancel is made. -/
def Interrupted (tools : Tools) (i : Invocation) (b : Bench) : Prop :=
  (∃ f, (tools b.calls i b.files).outcome = .error f) ∨ (called tools i b).Cancelled

/-- What becomes of the file for a picture when the tool is called. -/
structure Ends (tools : Tools) (i : Invocation) (picture : Path) (b : Bench)
    (result : Except Failure (Except String Path)) (b' : Bench) : Prop where
  calls : b'.calls = b.calls ++ [i]
  returned : ∀ p, result = .ok (.ok p) → p = picture ∧ Stands b' p
  /-- An interrupted call is the end: the files stay as the tool left them. -/
  interrupted : Interrupted tools i b → (∃ f, result = .error f) ∧ b' = called tools i b
  /-- After any other call the file is gone, if it is not returned. -/
  gone : ¬ Interrupted tools i b → (∀ p, result ≠ .ok (.ok p)) →
    b'.files.holds b'.here picture = false

/-- An empty file can be discarded. -/
theorem exists_discard {t : Tree} {here : Location} (hempty : t.isEmptyFile here picture = true) :
    ∃ t', t.discard here picture = .ok t' := by
  have hfile : t.isFile here picture = true := by
    rw [Tree.isEmptyFile, beq_iff_eq] at hempty
    simp [Tree.isFile, hempty]
  obtain ⟨l, content, executable, hlocate, hlook⟩ := Tree.exists_of_isFile hfile
  exact ⟨t.remove l, by simp [Tree.discard, hlocate, hlook]⟩

theorem Ends.of_interrupted (f : Failure) (hinterrupted : Interrupted tools i b) :
    Ends tools i picture b (.error f) (called tools i b) where
  calls := rfl
  returned := nofun
  interrupted := fun _ => ⟨⟨f, rfl⟩, rfl⟩
  gone := fun hnot => absurd hinterrupted hnot

theorem Ends.of_gone {result : Except Failure (Except String Path)} {t : Tree}
    (hnot : ¬ Interrupted tools i b) (hnone : ∀ p, result ≠ .ok (.ok p))
    (hgone : t.holds b.here picture = false) :
    Ends tools i picture b result { called tools i b with files := t } where
  calls := rfl
  returned := fun p hp => absurd hp (hnone p)
  interrupted := fun h => absurd h hnot
  gone := fun _ _ => hgone

theorem Ends.of_stands (hnot : ¬ Interrupted tools i b) (hstands : Stands (called tools i b) picture) :
    Ends tools i picture b (.ok (.ok picture)) (called tools i b) where
  calls := rfl
  returned := by
    rintro p ⟨⟩
    exact ⟨rfl, hstands⟩
  interrupted := fun h => absurd h hnot
  gone := fun _ hnone => absurd rfl (hnone picture)

theorem ends_drawInto (hopen : ¬ b.Refuses) :
    Ends tools i picture b ((drawInto tools i picture).run.run b).1
      ((drawInto tools i picture).run.run b).2 := by
  unfold drawInto
  cases houtcome : (tools b.calls i b.files).outcome with
  | error f =>
      rw [run_bind_error (run_call_error hopen houtcome)]
      exact .of_interrupted f (.inl ⟨f, houtcome⟩)
  | ok result =>
      rw [run_bind_ok (run_call_ok hopen houtcome)]
      rcases (called tools i b).cancelled_or_uncancelled with hcancelled | huncancelled
      · obtain ⟨m, hstop⟩ := run_checkCancelled_of_cancelled hcancelled
        rw [run_bind_error hstop]
        exact .of_interrupted _ (.inr hcancelled)
      · have hnot : ¬ Interrupted tools i b := by
          rintro (⟨f, hf⟩ | hcancelled)
          · rw [houtcome] at hf
            cases hf
          · exact hcancelled.not_uncancelled huncancelled
        rw [run_bind_ok (run_checkCancelled huncancelled), run_bind_ok (run_get _)]
        split
        · next hmissing =>
          cases hdiscard : (called tools i b).files.discard (called tools i b).here picture with
          | error e =>
              rw [run_bind_error (run_change_error hdiscard)]
              refine .of_gone hnot nofun ?_
              -- What cannot be discarded is no empty file, so nothing is there.
              rw [Bool.or_eq_true, Bool.not_eq_true'] at hmissing
              refine hmissing.resolve_right fun hempty => ?_
              obtain ⟨t, ht⟩ := exists_discard hempty
              rw [hdiscard] at ht
              cases ht
          | ok t =>
              rw [run_bind_ok (run_change_ok hdiscard)]
              exact .of_gone hnot nofun (Tree.holds_of_discard hdiscard)
        · next hstands =>
          simp only [Bool.or_eq_true, Bool.not_eq_true', not_or, Bool.not_eq_false,
            Bool.not_eq_true] at hstands
          exact .of_stands hnot hstands

/-! ## Rendering -/

/-- Rendering that ends before there is a file for the picture. -/
structure Unbegun (name : String) (b : Bench) (result : Except Failure (Except String Path))
    (b' : Bench) : Prop where
  calls : b'.calls = b.calls
  noPicture : ∀ p, result ≠ .ok (.ok p)
  /-- Only the file of drawings may have changed. -/
  elsewhere : ∀ l, b.files.locate b.here (dotFile name) ≠ .ok l → b'.files.look l = b.files.look l

/-- The bench on which the tool is called: of the drawings the last one is kept, and there is a new
and empty file for the picture. -/
structure Ready (name : String) (b kept ready : Bench) : Prop where
  last : ∃ n, (keepLast (dotFile name)).run.run b = (.ok n, kept)
  sameRest : kept = { b with files := kept.files }
  new : kept.files.holds kept.here (kept.nextFile ".png") = false
  made : kept.files.create kept.here (kept.nextFile ".png") [] = .ok ready.files
  empty : ready.files.read ready.here (kept.nextFile ".png") = .ok []
  rest : ready = { kept with files := ready.files, drawn := kept.nextNumber ".png" }

theorem keepLast_cases (file : Path) (b : Bench) :
    (∃ f, (keepLast file).run.run b = (.error f, b)) ∨
      ∃ n kept, (keepLast file).run.run b = (.ok n, kept) ∧ kept = { b with files := kept.files } ∧
        ∀ l, b.files.locate b.here file ≠ .ok l → kept.files.look l = b.files.look l := by
  cases hread : b.files.read b.here file with
  | error e =>
      refine .inl ⟨.fault (.file e), ?_⟩
      unfold keepLast
      rw [run_bind_ok (run_look _ _ _), hread]
      exact run_bind_error rfl
  | ok old =>
      obtain ⟨t, hrun, -, hframe, -⟩ := exists_run_keepLast hread
      exact .inr ⟨_, _, hrun, rfl, hframe⟩

theorem ready_of_create {n : Nat} {kept : Bench} {t : Tree}
    (hkept : (keepLast (dotFile name)).run.run b = (.ok n, kept))
    (hrest : kept = { b with files := kept.files })
    (hcreate : kept.files.create kept.here (kept.nextFile ".png") [] = .ok t) :
    Ready name b kept { kept with files := t, drawn := kept.nextNumber ".png" } where
  last := ⟨n, hkept⟩
  sameRest := hrest
  new := kept.holds_nextTemporary _ _ _
  made := hcreate
  empty := by
    obtain ⟨-, -, l, executable, hlocate, hlook⟩ :=
      Tree.look_of_create (numbered_ne_nil _ _ _ _) hcreate
    exact Tree.read_of_look hlocate hlook
  rest := rfl

/-- Every end of rendering accounts for the file of the picture.  The file is left behind, without
being returned, exactly by a call that is interrupted and leaves it. -/
theorem render_accounts (tools : Tools) (name program : String) (b : Bench) :
    Unbegun name b ((render tools name program).run.run b).1
        ((render tools name program).run.run b).2 ∨
      ∃ kept ready, Ready name b kept ready ∧
        Ends tools (drawCall program (dotFile name) (kept.nextFile ".png"))
          (kept.nextFile ".png") ready
          ((render tools name program).run.run b).1 ((render tools name program).run.run b).2 := by
  unfold render
  rw [run_bind_ok (run_get b)]
  split
  · exact .inl ⟨rfl, nofun, fun _ _ => rfl⟩
  split
  · exact .inl ⟨rfl, nofun, fun _ _ => rfl⟩
  rcases keepLast_cases (dotFile name) b with ⟨f, hfailed⟩ | ⟨n, kept, hkept, hrest, hframe⟩
  · rw [run_bind_error hfailed]
    exact .inl ⟨rfl, nofun, fun _ _ => rfl⟩
  rw [run_bind_ok hkept]
  have hcalls : kept.calls = b.calls := by rw [hrest]
  rcases kept.cancelled_or_uncancelled with hcancelled | huncancelled
  · obtain ⟨m, hstop⟩ := run_checkCancelled_of_cancelled hcancelled
    rw [run_bind_error hstop]
    exact .inl ⟨hcalls, nofun, hframe⟩
  rw [run_bind_ok (run_checkCancelled huncancelled)]
  cases hcreate : kept.files.create kept.here (kept.nextFile ".png") [] with
  | error e =>
      rw [run_bind_error (run_temporaryFile_error hcreate)]
      exact .inl ⟨hcalls, nofun, hframe⟩
  | ok t =>
      rw [run_bind_ok (run_temporaryFile_ok hcreate)]
      have hopen : ¬ Bench.Refuses { kept with files := t, drawn := kept.nextNumber ".png" } :=
        huncancelled.not_refuses
      exact .inr ⟨_, _, ready_of_create hkept hrest hcreate, ends_drawInto hopen⟩

/-- A drawing, and a run that can be cancelled. -/
def sampleDrawing : Bench where
  files := ⟨[("fg.dot", .file (Text.encode "digraph FlowGraph {}\n".toList) false), ("tmp", .dir [])]⟩
  here := []
  temporary := ⟨.root, ["tmp"]⟩
  token := some {}

/-- A tool that writes nothing, and during whose calls a request to cancel is made. -/
def cancellingTools : Tools := fun _ _ t => { files := t, cancel := some none, outcome := .ok {} }

example : ((render cancellingTools "fg" "dot").run.run sampleDrawing).2.files.isEmptyFile []
    ⟨.root, ["tmp", "jitscope-fg-1.png"]⟩ = true := by
  decide +kernel

end JitLens.FlowGraph
