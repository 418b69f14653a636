import JitLens.Settings.Field
/-!
# Changing settings

A user changes one setting after another, as on a page of switches, and some of them carry others
along: a flow graph needs a dump, the ahead-of-time compiler knows no tiers and no profiles, and
without a runtime of one's own only the default compiler is left.
-/

namespace JitLens

namespace Settings

/-- The settings with another capture mode; all but a dump turn flow graphs off. -/
def withCapture (s : Settings) (mode : CaptureMode) : Settings :=
  if mode ≠ .jitDump ∧ s.flowGraph = true then { s with capture := mode, flowGraph := false }
  else { s with capture := mode }

/-- The settings for the ahead-of-time compiler: no run of the project, no tiers, no profiles,
and plain disassembly. -/
def forCrossgen (s : Settings) : Settings :=
  withCapture { s with runApp := false, tieredJit := false, pgo := false } .disasm

/-- The settings after a change and all that it carries along. -/
def apply (s : Settings) (c : Change) : Settings :=
  match c with
  | .capture mode => s.withCapture mode
  | .flag .flowGraph true => { s with flowGraph := true }.withCapture .jitDump
  | .flag .pgo true => { s with pgo := true, tieredJit := true }
  | .flag .customRuntime false =>
    { { s with customRuntime := false }.withCapture .disasm with
      reload := .build, selectedJit := some defaultJit }
  | .optional .selectedJit (some name) =>
    let s := if isCrossgen name then s.forCrossgen else s
    { s with selectedJit := some name }
  | c => s.update c

/-- The settings after changes, each checked and applied in turn. -/
def applyAll (s : Settings) : List (String × Value) → Except ChangeError Settings
  | [] => .ok s
  | (name, value) :: rest =>
    match Change.check name value with
    | .ok c => (s.apply c).applyAll rest
    | .error e => .error e

/-- The settings after the entries of a file, with the keys that are no fields. -/
def setEntries (s : Settings) :
    List (Value × Value) → List Value × Except ChangeError Settings
  | [] => ([], .ok s)
  | (key, value) :: rest =>
    let field := match key with
      | .text name => Field.ofName? name
      | _ => none
    match field with
    | none =>
      let (unknown, result) := s.setEntries rest
      (key :: unknown, result)
    | some f =>
      match f.check value with
      | .ok c => (s.update c).setEntries rest
      | .error e => ([], .error e)

/-- The settings with the entries of a file and the defaults for all else, with the keys that are
no fields. -/
def ofEntries (entries : List (Value × Value)) : List Value × Except ChangeError Settings :=
  setEntries {} entries

end Settings
end JitLens
