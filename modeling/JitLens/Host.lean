import JitLens.Text.Blank
import JitLens.Text.Lowercase
import JitLens.Text.Search
/-!
# Host platform

The operating system and the architecture that a run is for, and the names that the build of a
runtime derives from them.
-/

namespace JitLens

/-- What the host says about itself. -/
structure Host where
  platform : String := "linux"
  machine : String := "x86_64"
  deriving DecidableEq, Repr

namespace Host

/-- Windows in the names of build folders. -/
def windows : String := "windows"

/-- Linux in the names of build folders. -/
def linux : String := "linux"

/-- macOS in the names of build folders. -/
def osx : String := "osx"

/-- The operating system in the names of build folders. -/
def os (h : Host) : String :=
  if Text.startsWith ['w', 'i', 'n'] h.platform.toList then windows
  else if h.platform = "darwin" then osx
  else linux

/-- Architectures by the names that machines go under. -/
def architectures : List (String × String) := [
  ("x86_64", "x64"), ("amd64", "x64"), ("x64", "x64"), ("aarch64", "arm64"), ("arm64", "arm64"),
  ("armv7l", "arm"), ("arm", "arm"), ("i386", "x86"), ("i686", "x86"), ("x86", "x86")]

/-- The architecture that a name in lower case stands for; an unknown name stands for itself. -/
def architectureOf (name : String) : String :=
  (architectures.lookup name).getD name

def architecture (h : Host) : String :=
  let machine := Text.lowered h.machine
  if machine = "" then "x64" else architectureOf machine

/-- The architecture that a name stands for, whatever its case and the blanks around it. -/
def normalizeArchitecture (name : String) : String :=
  architectureOf (Text.lowered (Text.trimmed name))

/-- The identifier of a runtime, such as `win-x64`. -/
def runtimeIdentifier (os arch : String) : String :=
  (if os = windows then "win" else os) ++ "-" ++ arch

/-- The file name of a program. -/
def executableName (name os : String) : String :=
  if os = windows then name ++ ".exe" else name

/-- The file name of the program that hosts a runtime build. -/
def corerunName (os : String) : String :=
  if os = windows then "CoreRun.exe" else "corerun"

/-- The script that builds the runtime. -/
def buildScriptName (os : String) : String :=
  if os = windows then "build.cmd" else "./build.sh"

end Host
end JitLens
