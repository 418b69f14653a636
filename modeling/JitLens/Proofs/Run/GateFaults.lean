import JitLens.Proofs.Run.Gate
/-!
# Faults at the gate

Two checks rely on something that is at fault at times.  The major version of a framework is read
as a number, which cannot have too many digits, and the name of a library pack is a pattern, in
which two stars have to stand alone.  Here is when that happens, and which checks settings with
the ahead-of-time compiler cannot pass.
-/

namespace JitLens

open Files

/-- Whether a verdict comes from a fault. -/
def Verdict.IsFault (v : Verdict) : Prop :=
  ∃ f, v = .fault f

namespace Verdict

theorem not_isFault_passed : ¬ IsFault passed := by
  rintro ⟨f, hf⟩
  cases hf

theorem not_isFault_refused (message : String) : ¬ IsFault (refused message) := by
  rintro ⟨f, hf⟩
  cases hf

theorem not_isFault_ofPath (complaint : String) (p : Option Path) :
    ¬ IsFault (ofPath complaint p) := by
  cases p with
  | none => exact not_isFault_refused complaint
  | some p => exact not_isFault_passed

theorem isFault_ofRule {r : Except Text.DigitsError (Option RunRule)} :
    IsFault (ofRule r) ↔ ∃ e, r = .error e := by
  cases r with
  | error e => exact iff_of_true ⟨_, rfl⟩ ⟨e, rfl⟩
  | ok broken =>
      refine iff_of_false ?_ (by simp)
      cases broken with
      | none => exact not_isFault_passed
      | some rule => exact not_isFault_refused rule.message

theorem isFault_ofPack {r : Except PatternError Compiler.Found} :
    IsFault (ofPack r) ↔ ∃ e, r = .error e := by
  cases r with
  | error e => exact iff_of_true ⟨_, rfl⟩ ⟨e, rfl⟩
  | ok found => exact iff_of_false (not_isFault_ofPath found.missing found.path?) (by simp)

end Verdict

/-! ## Frameworks -/

/-- Whether the major version of a framework has too many digits to be read. -/
def Framework.TooLong (name : String) : Prop :=
  ∃ digits, majorDigits? (Text.lower (Text.trim name.toList)) = some digits ∧
    Text.mostDigits < digits.length

theorem Text.readDecimal_error_iff {ds : List Char} :
    (∃ e, readDecimal ds = .error e) ↔ mostDigits < ds.length := by
  unfold readDecimal
  split
  · exact iff_of_true ⟨_, rfl⟩ (by assumption)
  · exact iff_of_false (by simp) (by assumption)

theorem exists_map_error {ε α β : Type} {r : Except ε α} {f : α → β} :
    (∃ e, r.map f = .error e) ↔ ∃ e, r = .error e := by
  cases r with
  | error e => exact iff_of_true ⟨e, rfl⟩ ⟨e, rfl⟩
  | ok a => exact iff_of_false (by simp [Except.map]) (by simp)

theorem Framework.isSupported_error_iff {name : String} :
    (∃ e, isSupported name = .error e) ↔ TooLong name := by
  unfold isSupported TooLong
  cases hdigits : majorDigits? (Text.lower (Text.trim name.toList)) with
  | none => exact iff_of_false (by simp) (by simp)
  | some digits =>
      dsimp only
      rw [exists_map_error, Text.readDecimal_error_iff]
      simp

theorem Settings.brokenRule?_error_iff {s : Settings} {t : Tree} {here : Location}
    {framework : String} :
    (∃ e, s.brokenRule? t here framework = .error e) ↔ Framework.TooLong framework := by
  unfold Settings.brokenRule?
  rw [exists_map_error, Framework.isSupported_error_iff]

/-- Where no broken rule is found, none is broken. -/
theorem Settings.isBroken_eq_false {s : Settings} {t : Tree} {here : Location}
    {framework : String} (hnone : s.brokenRule? t here framework = .ok none) :
    ∃ supported, ∀ rule : RunRule,
      rule.isBroken s supported (s.hasGraphProgram t here) = false := by
  unfold Settings.brokenRule? at hnone
  cases hframework : Framework.isSupported framework with
  | error e =>
      rw [hframework] at hnone
      cases hnone
  | ok supported =>
      rw [hframework] at hnone
      have hfirst : RunRule.firstBroken? s supported (s.hasGraphProgram t here) = none :=
        Except.ok.inj hnone
      refine ⟨supported, fun rule => ?_⟩
      have hrule : rule ∈ RunRule.all := by
        cases rule <;> decide
      exact Bool.eq_false_iff.2 (List.find?_eq_none.1 hfirst rule hrule)

/-! ## Library packs -/

/-- Whether a component of a pattern has two stars beside something else. -/
def BadPart (part : String) : Prop :=
  part ≠ "**" ∧ Text.contains ['*', '*'] part.toList = true

theorem partOf_error_iff {part : String} : (∃ e, partOf part = .error e) ↔ BadPart part := by
  unfold partOf BadPart
  by_cases hstars : part = "**"
  · exact iff_of_false (by simp [hstars]) (by simp [hstars])
  · by_cases hcontains : Text.contains ['*', '*'] part.toList = true
    · exact iff_of_true ⟨⟨⟩, by rw [if_neg hstars, if_pos hcontains]⟩ ⟨hstars, hcontains⟩
    · refine iff_of_false ?_ (fun hbad => hcontains hbad.2)
      rw [if_neg hstars, if_neg hcontains]
      split <;> simp

theorem mapM_partOf_error_iff {parts : List String} :
    (∃ e, parts.mapM partOf = .error e) ↔ ∃ part ∈ parts, BadPart part := by
  induction parts with
  | nil => exact iff_of_false (by simp [pure, Except.pure]) (by simp)
  | cons part parts ih =>
      have hpart : (∃ e, partOf part = .error e) ↔ BadPart part := partOf_error_iff
      have hbad : (∃ p ∈ part :: parts, BadPart p) ↔ BadPart part ∨ ∃ p ∈ parts, BadPart p := by
        simp
      rw [List.mapM_cons, hbad, ← hpart, ← ih]
      cases partOf part with
      | error e => exact iff_of_true ⟨e, rfl⟩ (Or.inl ⟨e, rfl⟩)
      | ok p =>
          cases parts.mapM partOf with
          | error e => exact iff_of_true ⟨e, rfl⟩ (Or.inr ⟨e, rfl⟩)
          | ok ps => exact iff_of_false (by simp [bind, Except.bind, pure, Except.pure]) (by simp)

theorem patternOf_error_iff {s : String} :
    (∃ e, patternOf s = .error e) ↔ ∃ part ∈ (Path.ofString s).parts, BadPart part := by
  rw [← mapM_partOf_error_iff]
  unfold patternOf
  cases (Path.ofString s).parts.mapM partOf with
  | error e => exact iff_of_true ⟨e, rfl⟩ ⟨e, rfl⟩
  | ok parts => exact iff_of_false (by simp [bind, Except.bind]) (by simp)

namespace Compiler

/-- Whether the search for the library pack ends in a fault: there are a compiler and a directory
of packs, and the name of the pack is no pattern. -/
def PackUnreadable (t : Tree) (here : Location) (host : Host) (s : Settings) : Prop :=
  (jitFolder? t here s.runtimeRoot (s.targetArch host) host.os).isSome = true ∧
    t.isDir here (packs s.runtimeRoot) = true ∧
    ∃ part ∈ (Path.ofString (packPattern (s.targetArch host) host.os)).parts, BadPart part

theorem archOr_targetArch (s : Settings) (host : Host) :
    archOr s host (some (s.targetArch host)) = s.targetArch host := by
  unfold archOr
  dsimp only
  split <;> rfl

theorem findPack_error_iff {t : Tree} {here : Location} {host : Host} {s : Settings} :
    (∃ e, findPack t here host s none = .error e) ↔ PackUnreadable t here host s := by
  have hpattern := patternOf_error_iff (s := packPattern (s.targetArch host) host.os)
  have harch : archOr s host none = s.targetArch host := rfl
  have hcompiler : (findCompiler t here host s (some (s.targetArch host))).path?.isNone =
      (jitFolder? t here s.runtimeRoot (s.targetArch host) host.os).isNone := by
    unfold findCompiler
    rw [archOr_targetArch]
    dsimp only
    cases jitFolder? t here s.runtimeRoot (s.targetArch host) host.os with
    | none => rfl
    | some jit => rfl
  unfold findPack PackUnreadable
  rw [← hpattern, harch]
  dsimp only
  rw [hcompiler]
  cases jitFolder? t here s.runtimeRoot (s.targetArch host) host.os with
  | none => exact iff_of_false (by simp) (by simp)
  | some jit =>
      rw [if_neg (by simp)]
      by_cases hpacks : t.isDir here (packs s.runtimeRoot) = true
      · rw [if_pos hpacks]
        cases patternOf (packPattern (s.targetArch host) host.os) with
        | error e => exact iff_of_true ⟨e, rfl⟩ ⟨rfl, hpacks, e, rfl⟩
        | ok pattern =>
            refine iff_of_false ?_ (by simp)
            simp only [bind, Except.bind]
            split <;> simp
      · rw [if_neg hpacks]
        refine iff_of_false ?_ (fun hbad => hpacks hbad.2.1)
        simp only [bind, Except.bind]
        split <;> simp

end Compiler

/-! ## Checks -/

namespace Check

variable {host : Host} {t : Tree} {here : Location} {o : Order}

/-- Whether a check ends in a fault instead of a message. -/
def Faults (host : Host) (t : Tree) (here : Location) (o : Order) : Check → Prop
  | rules => Framework.TooLong (Framework.normalize o.framework)
  | pack => o.settings.reload = .build ∧ Compiler.PackUnreadable t here host o.settings
  | _ => False

theorem isFault_verdict (c : Check) :
    (c.verdict host t here o).IsFault ↔ c.Faults host t here o := by
  cases c with
  | symbol =>
      refine iff_of_false ?_ not_false
      rw [verdict]
      split
      · exact Verdict.not_isFault_refused _
      · exact Verdict.not_isFault_passed
  | runtime =>
      refine iff_of_false ?_ not_false
      rw [verdict]
      split
      · exact Verdict.not_isFault_passed
      · exact Verdict.not_isFault_refused _
  | compiler => exact iff_of_false (Verdict.not_isFault_ofPath _ _) not_false
  | rules =>
      rw [verdict, Verdict.isFault_ofRule, Settings.brokenRule?_error_iff]
      rfl
  | project =>
      refine iff_of_false ?_ not_false
      rw [verdict]
      split
      · exact Verdict.not_isFault_refused _
      · exact Verdict.not_isFault_passed
  | pack =>
      rw [verdict]
      unfold Faults
      split
      · rename_i hbuild
        rw [Verdict.isFault_ofPack, Compiler.findPack_error_iff, and_iff_right hbuild]
      · rename_i hpublish
        exact iff_of_false Verdict.not_isFault_passed fun hfaults => hpublish hfaults.1

/-- Settings that pass break no rule. -/
theorem isBroken_eq_false (hpassed : rules.verdict host t here o = .passed) :
    ∃ supported, ∀ rule : RunRule, rule.isBroken o.settings supported
      (o.settings.hasGraphProgram t here) = false := by
  rw [verdict] at hpassed
  cases hrule : o.settings.brokenRule? t here (Framework.normalize o.framework) with
  | error e =>
      rw [hrule] at hpassed
      cases hpassed
  | ok broken =>
      cases broken with
      | some rule =>
          rw [hrule] at hpassed
          cases hpassed
      | none => exact Settings.isBroken_eq_false hrule

/-- The ahead-of-time compiler goes with neither profiles nor runs nor tiers nor flow graphs. -/
theorem rules_not_passed_of_crossgen (hcrossgen : o.settings.crossgenSelected = true)
    (hasked : o.settings.pgo = true ∨ o.settings.runApp = true ∨ o.settings.tieredJit = true ∨
      o.settings.flowGraph = true) :
    rules.verdict host t here o ≠ .passed := by
  intro hpassed
  obtain ⟨supported, hrules⟩ := isBroken_eq_false hpassed
  rcases hasked with hpgo | hrun | htiers | hgraph
  · have hrule := hrules .crossgenNoProfile
    rw [RunRule.isBroken, hcrossgen, hpgo] at hrule
    cases hrule
  · have hrule := hrules .crossgenNoRun
    rw [RunRule.isBroken, hcrossgen, hrun] at hrule
    cases hrule
  · have hrule := hrules .crossgenNoTiers
    rw [RunRule.isBroken, hcrossgen, htiers] at hrule
    cases hrule
  · have hrule := hrules .crossgenNoGraph
    rw [RunRule.isBroken, hcrossgen, hgraph] at hrule
    cases hrule

/-- A flow graph is drawn from a dump. -/
theorem capture_of_passed (hpassed : rules.verdict host t here o = .passed)
    (hgraph : o.settings.flowGraph = true) : o.settings.capture = .jitDump := by
  obtain ⟨supported, hrules⟩ := isBroken_eq_false hpassed
  have hrule := hrules .graphFromDump
  rw [RunRule.isBroken, hgraph, Bool.true_and] at hrule
  exact eq_of_beq (by simpa [bne] using hrule)

end Check
end JitLens
