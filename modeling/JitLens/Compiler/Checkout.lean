import JitLens.Failure
import JitLens.Settings.Basic
/-!
# Local builds of the runtime

Finds what a build of the runtime has left in its checkout: the directory of the compiler, the
pack of the libraries, and the compilers on offer.  What is missing is reported with the command
that builds it.
-/

namespace JitLens.Compiler

open Files

/-- Something that was looked for: a path, or why it was not found. -/
structure Found where
  path : Option Path := none
  error : Option String := none
  deriving DecidableEq, Repr

namespace Found

/-- The path, if there is one and no error. -/
def path? (f : Found) : Option Path :=
  if f.error.isNone then f.path else none

/-- The message for what was not found. -/
def missing (f : Found) : String :=
  match f.error with
  | some e => if e = "" then "Local runtime build was not found" else e
  | none => "Local runtime build was not found"

/-- The path, or the failure to find it. -/
def require (f : Found) : Except Failure Path :=
  match f.path? with
  | some p => .ok p
  | none => .error (.step .runtimeNotFound f.missing)

end Found

/-- The kinds of builds whose compiler prints, best one first. -/
def configurations : List String := ["Checked", "Debug"]

/-- The directory of all compilers of a checkout. -/
def compilers (root : String) : Path :=
  (((Path.ofString root).child "artifacts").child "bin").child "coreclr"

/-- The directory of all library packs of a checkout. -/
def packs (root : String) : Path :=
  (((Path.ofString root).child "artifacts").child "bin").child "runtime"

/-- The directory of the compiler for a system and an architecture. -/
def jitFolder? (t : Tree) (here : Location) (root arch os : String) : Option Path :=
  if Text.blankString root then none
  else
    (configurations.map fun c => (compilers root).child (os ++ "." ++ arch ++ "." ++ c)).find?
      (t.isDir here)

/-- The message for a compiler that was not found. -/
def noCompiler (s : Settings) (arch os : String) : String :=
  "Path to a local dotnet/runtime repository is either not set or it's not built for " ++ arch ++
    " arch yet" ++
    (if s.crossgenSelected then
      "\n(When you use crossgen and target e.g. arm64 you need coreclr built for that arch)"
    else "") ++
    "\nPlease clone it and build it in \x60Checked\x60 mode, e.g.:\n\n" ++
    "git clone git@github.com:dotnet/runtime.git\n" ++
    "cd runtime\n" ++
    Host.buildScriptName os ++ " Clr+Libs -c Release -rc Checked -a " ++ arch ++ "\n\n"

/-- The message for a library pack that was not found. -/
def noPack (arch os : String) : String :=
  "Please, build a runtime-pack in your local repo:\n\n" ++
    "Run '" ++ Host.buildScriptName os ++ " Clr+Libs -c Release -a " ++ arch ++
    "' in the repo root\n" ++
    "Don't worry, you won't have to re-build it every time you change something in jit, vm or " ++
    "corelib."

/-- The architecture asked for, or that of the settings. -/
def archOr (s : Settings) (host : Host) (arch : Option String) : String :=
  match arch with
  | some a => if a = "" then s.targetArch host else a
  | none => s.targetArch host

/-- The directory of the compiler. -/
def findCompiler (t : Tree) (here : Location) (host : Host) (s : Settings)
    (arch : Option String) : Found :=
  let arch := archOr s host arch
  match jitFolder? t here s.runtimeRoot arch host.os with
  | some p => { path := some p }
  | none => { error := some (noCompiler s arch host.os) }

/-- The names of library packs for a system and an architecture. -/
def packPattern (arch os : String) : String :=
  "*-" ++ os ++ "-Release-" ++ arch

/-- The path with the greatest name, the first of those if there are several. -/
def greatestName : List Path → Option Path
  | [] => none
  | p :: ps =>
    match greatestName ps with
    | none => some p
    | some q => if p.name < q.name then some q else some p

/-- The library pack with the greatest name. -/
def findPack (t : Tree) (here : Location) (host : Host) (s : Settings) (arch : Option String) :
    Except PatternError Found := do
  let arch := archOr s host arch
  let compiler := findCompiler t here host s (some arch)
  if compiler.path?.isNone then .ok compiler
  else
    let folder := packs s.runtimeRoot
    let found ←
      if t.isDir here folder then do
        let pattern ← patternOf (packPattern arch host.os)
        .ok ((t.select here pattern folder).filter (t.isDir here))
      else .ok []
    match greatestName found with
    | some p => .ok { path := some p }
    | none => .ok { error := some (noPack arch host.os) }

/-- The ahead-of-time compiler beside a compiler. -/
def crossgenProgram (jit : Path) (os : String) : Path :=
  (jit.child "crossgen2").child (Host.executableName "crossgen2" os)

/-- The program beside a compiler that runs programs with it. -/
def corerunProgram (jit : Path) (os : String) : Path :=
  jit.child (Host.corerunName os)

/-- Whether a file name is that of a compiler. -/
def isCompilerName (name : String) : Bool :=
  Text.startsWith "clrjit".toList name.toList || Text.startsWith "libclrjit".toList name.toList

/-- The compilers that can be selected. -/
def offeredJits (t : Tree) (here : Location) (host : Host) (s : Settings) : List String :=
  if !s.customRuntime then [defaultJit]
  else
    match jitFolder? t here s.runtimeRoot (s.targetArch host) host.os with
    | none => []
    | some folder =>
      let jits := (t.namesAt here folder).filter fun n =>
        t.isFile here ⟨folder.anchor, folder.parts ++ [n]⟩ && isCompilerName n
      if jits.any isDefaultJit then jits ++ [crossgenJit] else jits

end JitLens.Compiler
