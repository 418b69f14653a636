import JitLens.Bench
import JitLens.Loader.Sources
import JitLens.Text.Blank
/-!
# The loader

The loader is built once for each version of the tool, framework and version of the build program,
in a directory of its own below the root of the cache, and copied from there to where it is
needed.  An installation has three parts, with a call of the build program between any two of
them: `begin`, which sees whether the loader is there already, `arrange`, which takes it from the
cache or writes its sources, and `collect`, which takes it from the build.
-/

namespace JitLens

open Files

namespace Loader

/-- Where an installed loader comes from. -/
inductive Origin where
  | built
  | cached
  deriving DecidableEq, Repr

def Origin.name : Origin → String
  | .built => "built"
  | .cached => "cached"

/-- What a build of the loader is for. -/
structure Key where
  version : String
  framework : String
  /-- What the build program says about its version. -/
  sdk : String
  deriving DecidableEq, Repr

/-- The name of the directory for a key. -/
def Key.name (k : Key) : String :=
  k.version ++ "_" ++ k.framework ++ "_" ++ k.sdk

/-- The two files that make up the loader. -/
def binaries : List String := [program ++ ".dll", program ++ ".runtimeconfig.json"]

/-- The directory below that of a key that builds go to. -/
def outFolder : String := "out"

/-- The directory in which builds of a key are found. -/
def Key.out (k : Key) (root : Path) : Path :=
  (root.child k.name).child outFolder

/-- Whether the loader is in a directory. -/
def isIn (folder : Path) (t : Tree) (here : Location) : Bool :=
  binaries.all fun name => t.holds here (folder.child name)

/-- Writes one of the sources to a directory, unless it is there already, and returns its path. -/
def writeSource (waiting : String) (folder : Path) (fill : List Char → List Char) :
    Action Path := do
  let path := folder.child (sourceName waiting)
  let b ← get
  if b.files.holds b.here path then return path
  match sources.lookup waiting with
  | none => Action.ofFiles (.error ⟨.noEntry, waiting, none⟩)
  | some source =>
    Action.change fun t here => t.write here path (Text.encode (fill source))
    return path

def copyFile (source target : Path) : Action Unit := do
  let b ← get
  match b.files.copyFile b.here source target with
  | .ok files => set { b with files := files }
  | .error (.file e) => Action.fail (.fault (.file e))
  | .error (.same source target) => Action.fail (.fault (.sameFile source target))

/-- Copies the loader from one directory to another. -/
def copyTo (source dest : Path) : Action Unit :=
  binaries.forM fun name => copyFile (source.child name) (dest.child name)

/-- The first part: `none` if the loader is not there yet. -/
def begin (dest : Path) : Action (Option Origin) := do
  let b ← get
  if !b.files.isDir b.here dest then
    Action.stop .loaderBuild ("ERROR: dest dir was not found: " ++ dest.text)
  else if isIn dest b.files b.here then return some .cached
  else
    Action.report "Getting SDK version..."
    return none

/-- The second part: `none` if the loader is to be built from the sources that are now there. -/
def arrange (root : Path) (key : Key) (dest : Path) : Action (Option Origin) := do
  let b ← get
  if isIn (key.out root) b.files b.here then
    copyTo (key.out root) dest
    return some .cached
  else
    let folder := root.child key.name
    Action.makeDirs folder
    Action.checkCancelled
    Action.report ("Building '" ++ program ++ "' project...")
    let _ ← writeSource (program ++ ".cs_template") folder id
    let _ ← writeSource (program ++ ".csproj_template") folder (fillFramework key.framework)
    Action.checkCancelled
    return none

/-- The message for a build that did not leave the loader where it belongs. -/
def notBuilt (out : Path) (result : ToolResult) : String :=
  let named := binaries.map fun name => "'" ++ (out.child name).text ++ "'"
  "ERROR: 'dotnet build' did not produce expected binaries (" ++
    String.intercalate " and " named ++ "):\n" ++ result.output ++ "\n\n" ++ result.errors

/-- The third part, with what the build program left. -/
def collect (root : Path) (key : Key) (dest : Path) (result : ToolResult) : Action Origin := do
  let b ← get
  if !isIn (key.out root) b.files b.here then
    Action.stop .loaderBuild (notBuilt (key.out root) result)
  else
    Action.checkCancelled
    copyTo (key.out root) dest
    return .built

/-- The call that asks the build program for its version. -/
def versionCall (dotnet : String) : Invocation :=
  { executable := dotnet, args := ["--version"] }

def buildCall (dotnet : String) (root : Path) (key : Key) : Invocation where
  executable := dotnet
  args := ["build", "-c", "Release", "-o", outFolder]
  directory := some (root.child key.name).text

/-- The version that the build program says it has. -/
def sdkVersion (tools : Tools) (dotnet : String) : Action String := do
  let result ← tryCatch (Action.call tools (versionCall dotnet)) fun e =>
    if e.isCancelled then throw e
    else
      Action.stop .loaderBuild
        ("ERROR in LoaderAppManager.get_path_to_loader: " ++ e.literal)
  return Text.trimmed result.output

/-- The root of the cache if no other one is named. -/
def defaultRoot (temporary : Path) : Path :=
  temporary.child program

/-- Sees to it that the loader is in a directory. -/
def install (tools : Tools) (dotnet : String) (root dest : Path) (framework version : String) :
    Action Origin := do
  match ← begin dest with
  | some origin => return origin
  | none =>
    let key : Key := ⟨version, framework, ← sdkVersion tools dotnet⟩
    match ← arrange root key dest with
    | some origin => return origin
    | none => collect root key dest (← Action.call tools (buildCall dotnet root key))

end Loader
end JitLens
