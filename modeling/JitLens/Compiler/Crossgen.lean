import JitLens.Compiler.Variables
import JitLens.Text.Words
/-!
# Calls of the ahead-of-time compiler

The ahead-of-time compiler knows no variables of the runtime; each of them is given to it as an
option.
-/

namespace JitLens.Compiler

open Files

/-- A call of the ahead-of-time compiler. -/
structure CrossgenCall where
  program : Path
  args : List String
  vars : Variables
  deriving DecidableEq, Repr

namespace Crossgen

/-- What the names of the variables of the runtime start with, in lower case. -/
def leads : List (List Char) := ["dotnet_".toList, "complus_".toList]

/-- Names in lower case and what the compiler calls them, to be replaced one after the other. -/
def renamings : List (List Char × List Char) := [
  ("dotnet_jitdump".toList, "ngendump".toList), ("dotnet_jitdisasm".toList, "ngendisasm".toList),
  ("dotnet_".toList, []), ("complus_".toList, [])]

/-- What the compiler calls a variable. -/
def optionName (lower : List Char) : List Char :=
  renamings.foldl (fun cs (old, new) => Text.replaceAll old new cs) lower

/-- The option for a variable, if it is one of the runtime. -/
def option? (name value : String) : Option String :=
  let lower := Text.lower name.toList
  if leads.any fun lead => Text.startsWith lead lower then
    some ("--codegenopt:" ++ String.ofList (optionName lower) ++ "=" ++ value)
  else none

def options (vars : Variables) : List String :=
  vars.filterMap fun (name, value) => option? name value

/-- Variables that make the compiler itself faster. -/
def hostVariables : Variables := [
  ("DOTNET_TieredPGO", "0"), ("DOTNET_ReadyToRun", "1"), ("DOTNET_TC_QuickJitForLoops", "1"),
  ("DOTNET_TieredCompilation", "1")]

/-- The file of the core library. -/
def coreLibrary : String := "System.Private.CoreLib.dll"

/-- The pattern for the libraries of a directory. -/
def librariesOf (folder : Path) : String :=
  let text := folder.text
  if Text.endsWith ['/'] text.toList then text ++ "*.dll" else text ++ "/*.dll"

/-- The words of the user's own arguments. -/
def userArgs (s : Settings) : Except Text.WordsError (List String) :=
  match s.crossgenArgs with
  | some args =>
    if Text.blankString args then .ok []
    else (Text.readWords args.toList).map fun ws => ws.map String.ofList
  | none => .ok []

/-- The libraries that the compiler refers to. -/
def references (s : Settings) (folder compiler pack : Path) : List String :=
  if s.reload = .publish then ["-r:" ++ librariesOf folder]
  else ["-r:" ++ librariesOf pack, "-r:" ++ (compiler.child coreLibrary).text]

/-- The call for a compiled project, or what it needs and was not found. -/
def call (t : Tree) (here : Location) (host : Host) (s : Settings) (assembly : String)
    (folder : Path) (vars : Variables) : Except Fault (Except (Option String) CrossgenCall) := do
  let compiler := findCompiler t here host s none
  match compiler.path? with
  | none => .ok (.error compiler.error)
  | some jit =>
    let pack ← (findPack t here host s none).mapError .pattern
    match pack.path? with
    | none => .ok (.error pack.error)
    | some packFolder =>
      let extra ← (userArgs s).mapError .words
      .ok (.ok {
        program := crossgenProgram jit host.os
        args := ["--out", "aot"] ++ options vars ++ extra ++ [assembly ++ ".dll"] ++
          references s folder jit packFolder
        vars := Table.putAll vars hostVariables })

end Crossgen
end JitLens.Compiler
