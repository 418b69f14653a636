import JitLens.Compiler.Crossgen
import JitLens.Proofs.Run.GateFaults
/-!
# What is found in a checkout

The search for the library pack comes after that for the compiler.  Where one of them is not found,
there is a message, with the command that builds it.
-/

namespace JitLens

open Files

namespace Compiler

variable {host : Host} {s : Settings} {b : Bench} {m : String}

/-- The directory of the compiler that the files of a bench hold. -/
def Located (host : Host) (s : Settings) (b : Bench) (jit : Path) : Prop :=
  jitFolder? b.files b.here s.runtimeRoot (s.targetArch host) host.os = some jit

theorem located_of_path? {jit : Path}
    (hpath : (findCompiler b.files b.here host s none).path? = some jit) : Located host s b jit := by
  unfold Located
  cases hfolder : jitFolder? b.files b.here s.runtimeRoot (s.targetArch host) host.os with
  | none =>
      simp only [findCompiler, archOr, hfolder] at hpath
      cases hpath
  | some p =>
      simp only [findCompiler, archOr, hfolder] at hpath
      exact hpath

theorem located_of_require {jit : Path}
    (hrequire : (findCompiler b.files b.here host s none).require = .ok jit) :
    Located host s b jit := by
  apply located_of_path?
  unfold Found.require at hrequire
  split at hrequire
  · next p hpath =>
    cases hrequire
    exact hpath
  · cases hrequire

/-- The search for the compiler leaves nothing but a message. -/
def LacksCompiler (host : Host) (s : Settings) (b : Bench) (m : String) : Prop :=
  findCompiler b.files b.here host s none = { error := some m }

/-- The search for the library pack leaves nothing but a message. -/
def LacksPack (host : Host) (s : Settings) (b : Bench) (m : String) : Prop :=
  findPack b.files b.here host s none = .ok { error := some m }

theorem noPack_ne (arch os : String) : noPack arch os ≠ "" := by
  unfold noPack
  iterate 7 apply ne_of_append
  decide

/-- What the search for the library pack comes to. -/
inductive PackSearch (host : Host) (s : Settings) (b : Bench) : Except PatternError Found → Prop where
  | noCompiler
      (hfolder : jitFolder? b.files b.here s.runtimeRoot (s.targetArch host) host.os = none) :
    PackSearch host s b (.ok { error := some (noCompiler s (s.targetArch host) host.os) })
  | unreadable {jit : Path} {e : PatternError} (hjit : Located host s b jit) :
    PackSearch host s b (.error e)
  | noPack {jit : Path} (hjit : Located host s b jit) :
    PackSearch host s b (.ok { error := some (noPack (s.targetArch host) host.os) })
  | pack {jit path : Path} {pattern : List PatternPart} (hjit : Located host s b jit)
      (hpattern : patternOf (packPattern (s.targetArch host) host.os) = .ok pattern) :
    PackSearch host s b (.ok { path := some path })

theorem packSearch (host : Host) (s : Settings) (b : Bench) :
    PackSearch host s b (findPack b.files b.here host s none) := by
  have harch : archOr s host none = s.targetArch host := rfl
  unfold findPack findCompiler
  rw [harch]
  dsimp only
  rw [archOr_targetArch]
  cases hfolder : jitFolder? b.files b.here s.runtimeRoot (s.targetArch host) host.os with
  | none => exact .noCompiler hfolder
  | some jit =>
      have hpath : ({ path := some jit } : Found).path?.isNone = false := rfl
      dsimp only
      rw [hpath, if_neg Bool.false_ne_true]
      split
      · cases hpattern : patternOf (packPattern (s.targetArch host) host.os) with
        | error e => exact .unreadable hfolder
        | ok pattern =>
            simp only [bind, Except.bind]
            split
            · exact .pack hfolder hpattern
            · exact .noPack hfolder
      · exact .noPack hfolder

/-- A pack that is not found leaves a message. -/
theorem exists_lacksPack {pack : Found} (hpack : findPack b.files b.here host s none = .ok pack)
    (hnone : pack.path? = none) : ∃ m, pack = { error := some m } ∧ LacksPack host s b m := by
  have hsearch := packSearch host s b
  rw [hpack] at hsearch
  cases hsearch with
  | noCompiler _ => exact ⟨_, rfl, hpack⟩
  | noPack _ => exact ⟨_, rfl, hpack⟩
  | pack _ _ => cases hnone

theorem not_lacksPack {pack : Found} {path : Path}
    (hpack : findPack b.files b.here host s none = .ok pack) (hpath : pack.path? = some path) :
    ¬ LacksPack host s b m := by
  intro hlacks
  rw [LacksPack, hpack] at hlacks
  cases hlacks
  cases hpath

/-- Where a library pack was found once, the search for it does not end in a fault. -/
theorem exists_findPack {pack : Found} {path : Path}
    (hpack : findPack b.files b.here host s none = .ok pack) (hpath : pack.path? = some path)
    (b' : Bench) : ∃ pack', findPack b'.files b'.here host s none = .ok pack' := by
  cases hfound : findPack b'.files b'.here host s none with
  | ok pack' => exact ⟨pack', rfl⟩
  | error e =>
      have hunreadable := findPack_error_iff.1 ⟨e, hfound⟩
      obtain ⟨e', herror⟩ := patternOf_error_iff.2 hunreadable.2.2
      have hsearch := packSearch host s b
      rw [hpack] at hsearch
      cases hsearch with
      | noCompiler _ => cases hpath
      | noPack _ => cases hpath
      | pack _ hpattern =>
          rw [herror] at hpattern
          cases hpattern

theorem LacksPack.ne (hlacks : LacksPack host s b m) : m ≠ "" := by
  have hsearch := packSearch host s b
  unfold LacksPack at hlacks
  rw [hlacks] at hsearch
  cases hsearch with
  | noCompiler _ => exact noCompiler_ne _ _ _
  | noPack _ => exact noPack_ne _ _

/-- Beside a compiler it is the pack itself that is not found. -/
theorem LacksPack.eq_noPack {jit : Path} (hlacks : LacksPack host s b m)
    (hjit : Located host s b jit) : m = noPack (s.targetArch host) host.os := by
  have hsearch := packSearch host s b
  unfold LacksPack at hlacks
  rw [hlacks] at hsearch
  cases hsearch with
  | noCompiler hfolder =>
      rw [Located, hfolder] at hjit
      cases hjit
  | noPack _ => rfl

theorem lacksCompiler_iff : LacksCompiler host s b m ↔
    jitFolder? b.files b.here s.runtimeRoot (s.targetArch host) host.os = none ∧
      m = noCompiler s (s.targetArch host) host.os := by
  unfold LacksCompiler findCompiler archOr
  dsimp only
  cases jitFolder? b.files b.here s.runtimeRoot (s.targetArch host) host.os with
  | none => simp [eq_comm]
  | some jit => simp

/-- Without a compiler there is no pack either. -/
theorem LacksCompiler.lacksPack (hlacks : LacksCompiler host s b m) : LacksPack host s b m := by
  obtain ⟨hfolder, rfl⟩ := lacksCompiler_iff.1 hlacks
  have hsearch := packSearch host s b
  unfold LacksPack
  cases hfound : findPack b.files b.here host s none with
  | error e =>
      rw [hfound] at hsearch
      cases hsearch with
      | unreadable hjit =>
          rw [Located, hfolder] at hjit
          cases hjit
  | ok pack =>
      rw [hfound] at hsearch
      cases hsearch with
      | noCompiler _ => rfl
      | noPack hjit | pack hjit _ =>
          rw [Located, hfolder] at hjit
          cases hjit

theorem findCompiler_of_located {jit : Path} (hjit : Located host s b jit) :
    findCompiler b.files b.here host s none = { path := some jit } := by
  unfold Located at hjit
  simp only [findCompiler, archOr, hjit]

theorem lacksCompiler_or_located (host : Host) (s : Settings) (b : Bench) :
    (∃ m, LacksCompiler host s b m) ∨ ∃ jit, Located host s b jit := by
  cases hfolder : jitFolder? b.files b.here s.runtimeRoot (s.targetArch host) host.os with
  | none => exact .inl ⟨_, lacksCompiler_iff.2 ⟨hfolder, rfl⟩⟩
  | some jit => exact .inr ⟨jit, hfolder⟩

theorem LacksPack.lacksCompiler_or_located (hlacks : LacksPack host s b m) :
    LacksCompiler host s b m ∨ ∃ jit, Located host s b jit := by
  have hsearch := packSearch host s b
  unfold LacksPack at hlacks
  rw [hlacks] at hsearch
  cases hsearch with
  | noCompiler hfolder => exact .inl (lacksCompiler_iff.2 ⟨hfolder, rfl⟩)
  | noPack hjit => exact .inr ⟨_, hjit⟩

theorem LacksCompiler.not_located {jit : Path} (hlacks : LacksCompiler host s b m) :
    ¬ Located host s b jit := by
  intro hjit
  rw [Located, (lacksCompiler_iff.1 hlacks).1] at hjit
  cases hjit

/-! ## The call of the ahead-of-time compiler -/

namespace Crossgen

/-- The ways in which putting the call together ends. -/
inductive CallEnding (host : Host) (s : Settings) (b : Bench) (vars : Variables) :
    Except Fault (Except (Option String) CrossgenCall) → Prop where
  | fault (e : Fault) : CallEnding host s b vars (.error e)
  | missing {m : String} (hlacks : LacksPack host s b m) :
    CallEnding host s b vars (.ok (.error (some m)))
  | made {jit : Path} {call : CrossgenCall} (hjit : Located host s b jit)
      (hprogram : call.program = crossgenProgram jit host.os)
      (hvars : call.vars = Table.putAll vars hostVariables) :
    CallEnding host s b vars (.ok (.ok call))

theorem call_of_lacksPack (assembly : String) (folder : Path) (vars : Variables)
    (hlacks : LacksPack host s b m) :
    call b.files b.here host s assembly folder vars = .ok (.error (some m)) := by
  rcases hlacks.lacksCompiler_or_located with hcompiler | ⟨jit, hjit⟩
  · unfold LacksCompiler at hcompiler
    rw [call, hcompiler]
    rfl
  · have hcompiler := findCompiler_of_located hjit
    unfold LacksPack at hlacks
    rw [call, hcompiler, hlacks]
    rfl

theorem call_ending (host : Host) (s : Settings) (b : Bench) (assembly : String) (folder : Path)
    (vars : Variables) :
    CallEnding host s b vars (call b.files b.here host s assembly folder vars) := by
  rcases lacksCompiler_or_located host s b with ⟨m, hlacks⟩ | ⟨jit, hjit⟩
  · rw [call_of_lacksPack assembly folder vars hlacks.lacksPack]
    exact .missing hlacks.lacksPack
  · have hcompiler := findCompiler_of_located hjit
    have hjit? : ({ path := some jit } : Found).path? = some jit := rfl
    -- The pack is asked for whatever the strategy is.
    cases hpack : findPack b.files b.here host s none with
    | error e =>
        rw [call, hcompiler, hpack]
        exact .fault (.pattern e)
    | ok pack =>
        have hfound : (Except.ok pack : Except PatternError Found).mapError Fault.pattern =
          .ok pack := rfl
        cases hpath : pack.path? with
        | none =>
            obtain ⟨m, rfl, hlacks⟩ := exists_lacksPack hpack hpath
            rw [call_of_lacksPack assembly folder vars hlacks]
            exact .missing hlacks
        | some packFolder =>
            rw [call, hcompiler]
            dsimp only
            rw [hjit?, hpack, hfound]
            simp only [bind, Except.bind]
            rw [hpath]
            dsimp only
            cases (userArgs s).mapError Fault.words with
            | error e => exact .fault e
            | ok extra => exact .made hjit rfl rfl

end Crossgen

end Compiler
end JitLens
