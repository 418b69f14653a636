import JitLens.Text.Search
/-!
# Sources of the loader

The loader is a small program that is built on the spot.  Its sources are its one file of code and
its project file, which names the framework that it is built for.
-/

namespace JitLens.Loader

/-- The name of the loader. -/
def program : String := "JitScopeLoader"

def codeLines : List String := [
  "using System;",
  "using System.IO;",
  "using System.Linq;",
  "using System.Reflection;",
  "using System.Runtime.CompilerServices;",
  "using System.Runtime.Loader;",
  "",
  "// Loads an assembly and asks the runtime to JIT the requested method(s)",
  "// so that DOTNET_JitDisasm/DOTNET_JitDump output is produced for them.",
  "//",
  "// Usage: JitScopeLoader <assembly.dll> <type> <method|*>",
  "public static class JitScopeLoader",
  "\x7b",
  "    public static int Main(string[] args)",
  "    \x7b",
  "        if (args.Length != 3)",
  "        \x7b",
  "            Console.Error.WriteLine(\"Usage: JitScopeLoader <assembly.dll> <type> <method|*>\");",
  "            return 1;",
  "        \x7d",
  "",
  "        string assemblyPath = Path.GetFullPath(args[0]);",
  "        string typeName = args[1];",
  "        string methodName = args[2];",
  "",
  "        Assembly asm = AssemblyLoadContext.Default.LoadFromAssemblyPath(assemblyPath);",
  "        Type type = asm.GetType(typeName) ?? asm.GetTypes().FirstOrDefault(t => t.FullName == typeName || t.Name == typeName);",
  "        if (type == null)",
  "        \x7b",
  "            Console.Error.WriteLine($\"Type '\x7btypeName\x7d' was not found in '\x7bassemblyPath\x7d'\");",
  "            return 1;",
  "        \x7d",
  "",
  "        const BindingFlags flags = BindingFlags.Public | BindingFlags.NonPublic |",
  "                                   BindingFlags.Static | BindingFlags.Instance | BindingFlags.DeclaredOnly;",
  "",
  "        foreach (Type t in new[] \x7b type \x7d.Concat(type.GetNestedTypes(flags)))",
  "        \x7b",
  "            foreach (MethodBase method in t.GetMethods(flags).Cast<MethodBase>().Concat(t.GetConstructors(flags)))",
  "            \x7b",
  "                if (methodName != \"*\" && method.Name != methodName)",
  "                    continue;",
  "                if (method.IsAbstract || method.ContainsGenericParameters)",
  "                    continue;",
  "                try",
  "                \x7b",
  "                    RuntimeHelpers.PrepareMethod(method.MethodHandle);",
  "                \x7d",
  "                catch (Exception e)",
  "                \x7b",
  "                    Console.Error.WriteLine($\"Failed to prepare \x7bt.FullName\x7d.\x7bmethod.Name\x7d: \x7be.Message\x7d\");",
  "                \x7d",
  "            \x7d",
  "        \x7d",
  "        return 0;",
  "    \x7d",
  "\x7d"]

/-- The lines of the project file. -/
def projectLines : List String := [
  "<Project Sdk=\"Microsoft.NET.Sdk\">",
  "",
  "  <PropertyGroup>",
  "    <OutputType>Exe</OutputType>",
  "    <TargetFramework>%tfm%</TargetFramework>",
  "    <Nullable>disable</Nullable>",
  "    <ImplicitUsings>disable</ImplicitUsings>",
  "    <AppendTargetFrameworkToOutputPath>false</AppendTargetFrameworkToOutputPath>",
  "    <RollForward>LatestMajor</RollForward>",
  "  </PropertyGroup>",
  "",
  "</Project>"]

/-- What stands in the project file in place of the framework. -/
def frameworkMark : List Char := "%tfm%".toList

/-- Lines as a text, each with a line end. -/
def textOf (lines : List String) : List Char :=
  lines.flatMap fun l => l.toList ++ ['\n']

/-- The ending of the names of the sources where they wait to be written. -/
def sourceMark : List Char := "_template".toList

/-- The sources by the names under which they wait to be written. -/
def sources : List (String × List Char) := [
  (program ++ ".cs_template", textOf codeLines),
  (program ++ ".csproj_template", textOf projectLines)]

/-- The name under which a source is written. -/
def sourceName (waiting : String) : String :=
  String.ofList (Text.replaceAll sourceMark [] waiting.toList)

def fillFramework (framework : String) (source : List Char) : List Char :=
  Text.replaceAll frameworkMark framework.toList source

end JitLens.Loader
