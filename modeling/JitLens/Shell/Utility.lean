import JitLens.Shell.Machine
import JitLens.Text.Blank
import JitLens.Text.Search
/-!
# Utilities

The small programs that scripts use.  Each of them gives an exit code.

Only the command line and test runs use this module; see `JitLens.Shell.Tools`.
-/

namespace JitLens.Shell

open Files

/-- A text as a path. -/
abbrev pathOf (s : String) : Path := Path.ofString s

/-- Reads a file, or what comes in if there is none, and complains about one that is missing. -/
def readInput (utility : String) (file : Option String) : Act (Option Text.Bytes) := do
  let m ← get
  match file.filter (· ≠ "-") with
  | none =>
    set { m with input := [] }
    return some m.input
  | some f =>
    match m.files.read m.here (pathOf f) with
    | .ok bytes => return some bytes
    | .error e =>
      complain (utility ++ ": " ++ f ++ ": " ++ e.errno.text)
      return none

/-- Writes files one behind the other. -/
def concatenate : List String → Act Nat
  | [] => return 0
  | f :: fs => do
    let status ← match ← readInput "cat" (some f) with
      | some bytes => do
        say bytes
        pure 0
      | none => pure 1
    let rest ← concatenate fs
    return max status rest

/-- Changes the files for each of several names; the exit code tells of those that failed. -/
def changeEach (change : Tree → Location → Path → Except FileError Tree)
    (complaint : String → FileError → String) : List String → Act Nat
  | [] => return 0
  | f :: fs => do
    let m ← get
    let status ← match change m.files m.here (pathOf f) with
      | .ok files => do
        set { m with files := files }
        pure 0
      | .error e => do
        complain (complaint f e)
        pure 1
    let rest ← changeEach change complaint fs
    return max status rest

/-- Makes a file, or leaves one that is there as it is. -/
def touchFile (t : Tree) (here : Location) (p : Path) : Except FileError Tree :=
  if t.holds here p then .ok t else t.write here p []

/-- Removes a file, and a directory if it may be one. -/
def removeAt (always directories : Bool) (t : Tree) (here : Location) (p : Path) :
    Except FileError Tree :=
  match t.locate here p with
  | .error e => if always then .ok t else .error ⟨e, p.text, none⟩
  | .ok l =>
    match t.look l with
    | none => if always then .ok t else .error ⟨.noEntry, p.text, none⟩
    | some .dir => if directories then .ok (t.remove l) else .error ⟨.isDirectory, p.text, none⟩
    | some (.file _ _) => .ok (t.remove l)

/-- The letters of the options of a utility, and its other arguments. -/
def splitOptions (args : List String) : List Char × List String :=
  let (options, files) := args.partition fun a => a.toList.head? = some '-' && a != "-"
  (options.flatMap fun o => o.toList.drop 1, files)

/-- The milliseconds that a duration stands for. -/
def durationOf (s : String) : Nat :=
  let cs := s.toList
  let whole := cs.takeWhile Text.isDigit
  let fraction := match cs.drop whole.length with
    | '.' :: cs => cs.takeWhile Text.isDigit
    | _ => []
  let thousandths := (fraction ++ ['0', '0', '0']).take 3
  let unit := if cs.getLast? = some 'm' then 60 else if cs.getLast? = some 'h' then 3600 else 1
  unit * (1000 * Text.numberOf 10 whole + Text.numberOf 10 thousandths)

/-- The numbers from one to another, as lines. -/
def countUp (low high : Int) : Text.Bytes :=
  (List.range (high + 1 - low).toNat).flatMap fun (n : Nat) =>
    Text.encode (toString (low + n) ++ "\n").toList

def firstLines : Nat → Text.Bytes → Text.Bytes
  | 0, _ => []
  | _, [] => []
  | n + 1, b :: bs => if b = 10 then b :: firstLines n bs else b :: firstLines (n + 1) bs

/-- Writes the beginning of what comes in. -/
def head (args : List String) : Act Nat := do
  let (cut, files) : (Text.Bytes → Text.Bytes) × List String := match args with
    | "-c" :: n :: fs => (fun bs => bs.take (argumentNumber n).toNat, fs)
    | "-n" :: n :: fs => (firstLines (argumentNumber n).toNat, fs)
    | fs => (firstLines 10, fs)
  match ← readInput "head" files.head? with
  | some bytes =>
    say (cut bytes)
    return 0
  | none => return 1

/-- The lines of a text, each with its line end. -/
def byteLines : Text.Bytes → List Text.Bytes
  | [] => []
  | b :: bs =>
    if b = 10 then [b] :: byteLines bs
    else
      match byteLines bs with
      | [] => [[b]]
      | l :: ls => (b :: l) :: ls

/-- Writes the end of what comes in. -/
def tail (args : List String) : Act Nat := do
  let lastLines (n : Nat) (bs : Text.Bytes) : Text.Bytes :=
    let ls := byteLines bs
    (ls.drop (ls.length - n)).flatten
  let (cut, files) : (Text.Bytes → Text.Bytes) × List String := match args with
    | "-c" :: n :: fs => (fun bs => bs.drop (bs.length - (argumentNumber n).toNat), fs)
    | "-n" :: n :: fs => (lastLines (argumentNumber n).toNat, fs)
    | fs => (lastLines 10, fs)
  match ← readInput "tail" files.head? with
  | some bytes =>
    say (cut bytes)
    return 0
  | none => return 1

def wordCount (bytes : Text.Bytes) : Nat :=
  let blank (b : UInt8) : Bool := b == 0x20 || (0x09 ≤ b && b ≤ 0x0d)
  let starts := (blank 0x20 :: bytes.map blank).zip (bytes.map blank)
  starts.countP fun (before, now) => before && !now

/-- Writes the count of bytes, words or lines. -/
def count (args : List String) : Act Nat := do
  let (options, files) := splitOptions args
  match ← readInput "wc" files.head? with
  | some bytes =>
    let n := if options.contains 'l' then bytes.count 10
      else if options.contains 'w' then wordCount bytes
      else bytes.length
    let label := (files.head?.map (" " ++ ·)).getD ""
    say (Text.encode (toString n ++ label ++ "\n").toList)
    return 0
  | none => return 1

/-- Whether two numbers compare as an operator asks. -/
def compare? (op : String) (a b : Int) : Option Bool :=
  match op with
  | "-eq" => some (a == b)
  | "-ne" => some (a != b)
  | "-lt" => some (a < b)
  | "-le" => some (a ≤ b)
  | "-gt" => some (b < a)
  | "-ge" => some (b ≤ a)
  | _ => none

/-- Whether a file is as an operator asks. -/
def fileTest (m : Machine) (op file : String) : Bool :=
  let t := m.files
  let p := pathOf file
  match op with
  | "-e" => t.holds m.here p
  | "-f" => t.isFile m.here p
  | "-d" => t.isDir m.here p
  | "-r" => t.holds m.here p
  | "-w" => t.holds m.here p
  | "-s" => t.isFile m.here p && !t.isEmptyFile m.here p
  | "-x" =>
    match t.lookAt m.here p with
    | some (.file _ executable) => executable
    | some .dir => true
    | none => false
  | _ => false

/-- Whether a condition of one part holds. -/
def primary (m : Machine) : List String → Bool
  | [s] => s != ""
  | ["-n", s] => s != ""
  | ["-z", s] => s == ""
  | [op, s] => fileTest m op s
  | [a, op, b] =>
    if op = "=" ∨ op = "==" then a == b
    else if op = "!=" then a != b
    else (compare? op (argumentNumber a) (argumentNumber b)).getD false
  | _ => false

/-- Whether a condition holds. -/
def condition (m : Machine) : List String → Bool
  | "!" :: args => !condition m args
  | a :: op :: b :: "-a" :: rest => primary m [a, op, b] && condition m rest
  | a :: op :: b :: "-o" :: rest => primary m [a, op, b] || condition m rest
  | args => primary m args

/-- The operand of a comparison of numbers that is no number. -/
def badNumber? : List String → Option String
  | [a, op, b] =>
    if (compare? op 0 0).isNone then none
    else
      [a, b].find? fun s =>
        let digits := (Text.trim s.toList).dropWhile fun c => c == '-' || c == '+'
        digits.isEmpty || !digits.all Text.isDigit
  | _ => none

/-- The exit code for a condition. -/
def conditionStatus (command : String) (args : List String) : Act Nat := do
  let m ← get
  match badNumber? args with
  | some s =>
    complainAt 1 (command ++ ": Illegal number: " ++ s)
    return 2
  | none => return if condition m args then 0 else 1

/-- Blanks between the words of a line. -/
def isGap (c : Char) : Bool :=
  c == ' ' || c == '\t'

/-- Gives each name a word of a line, and the last one what is left. -/
def shareOut : List String → List Char → Machine → Machine
  | [], _, m => m
  | [n], cs, m => m.set n (String.ofList ((cs.reverse.dropWhile isGap).reverse))
  | n :: ns, cs, m =>
    let word := cs.takeWhile fun c => !isGap c
    shareOut ns ((cs.drop word.length).dropWhile isGap) (m.set n (String.ofList word))

/-- Takes the next line from what comes in. -/
def readLine (names : List String) : Act Nat := do
  let m ← get
  let line := m.input.takeWhile (· ≠ 10)
  let rest := m.input.drop line.length
  let text := (Text.decodeLossy line).dropWhile isGap
  let names := if names.isEmpty then ["REPLY"] else names
  set (shareOut names text { m with input := rest.drop 1 })
  return if rest.isEmpty then 1 else 0

/-- Lists files, then the names in directories. -/
def list (args : List String) : Act Nat := do
  let (options, named) := splitOptions args
  let named := if named.isEmpty then ["."] else named
  let m ← get
  let standing (f : String) : Option Item := m.files.lookAt m.here (pathOf f)
  let missing := named.filter fun f => (standing f).isNone
  let folders := named.filter fun f => standing f == some .dir
  let files := named.filter fun f => (standing f).isSome && standing f != some .dir
  for f in missing do
    complain ("ls: cannot access '" ++ f ++ "': No such file or directory")
  let sayLines (ls : List String) : Act Unit :=
    say (Text.encode (ls.flatMap fun l => (l ++ "\n").toList))
  sayLines files
  let shown (f : String) : List String :=
    (m.files.namesAt m.here (pathOf f)).filter fun n =>
      options.contains 'a' || options.contains 'A' || n.toList.head? != some '.'
  match folders with
  | [f] =>
    sayLines (if named.length = 1 then shown f
      else (if files.isEmpty then [] else [""]) ++ (f ++ ":") :: shown f)
  | fs =>
    let sections := fs.map fun f => (f ++ ":") :: shown f
    sayLines (List.intercalate [""] ((if files.isEmpty then [] else [[]]) ++ sections))
  return if missing.isEmpty then 0 else 2

/-- Copies a file or a directory, or moves it, onto a path or into a directory. -/
def transfer (utility : String) (moves : Bool) (args : List String) : Act Nat := do
  let (options, named) := splitOptions args
  match named with
  | [source, target] =>
    let m ← get
    match m.files.locate m.here (pathOf source), m.files.locate m.here (pathOf target) with
    | .ok origin, .ok goal =>
      match m.files.entry? origin with
      | some (.dir children) =>
        let goal := if m.files.look goal = some .dir then goal ++ origin.getLast?.toList else goal
        if moves || options.contains 'r' || options.contains 'R' then
          let files := if moves then m.files.remove origin else m.files
          set { m with files := files.put goal (.dir children) }
          return 0
        else
          complain (utility ++ ": -r not specified; omitting directory '" ++ source ++ "'")
          return 1
      | some entry =>
        let goal := if m.files.look goal = some .dir then goal ++ origin.getLast?.toList else goal
        let files := if moves then m.files.remove origin else m.files
        set { m with files := files.put goal entry }
        return 0
      | none =>
        complain (utility ++ ": cannot stat '" ++ source ++ "': No such file or directory")
        return 1
    | _, _ =>
      complain (utility ++ ": cannot stat '" ++ source ++ "': No such file or directory")
      return 1
  | _ =>
    complain (utility ++ ": missing file operand")
    return 1

/-- The characters of a set, with ranges and escapes written out. -/
def setOf : List Char → List Char
  | '\\' :: c :: cs =>
    match escapeLetter? c with
    | some n => Char.ofNat n :: setOf cs
    | none => (if c = '0' then '\x00' else c) :: setOf cs
  | a :: '-' :: b :: cs =>
    (List.range (b.toNat + 1 - a.toNat)).map (fun n => Char.ofNat (a.toNat + n)) ++ setOf cs
  | c :: cs => c :: setOf cs
  | [] => []

/-- Replaces characters of one set by those of another, or takes them out. -/
def exchange (args : List String) : Act Nat := do
  let text := Text.decodeLossy ((← readInput "tr" none).getD [])
  match args with
  | ["-d", taken] =>
    let taken := setOf taken.toList
    say (Text.encode (text.filter fun c => !taken.contains c))
    return 0
  | [old, new] =>
    let old := setOf old.toList
    let new := setOf new.toList
    let last := new.getLast?.getD ' '
    let replace (c : Char) : Char :=
      if old.contains c then new.getD (old.idxOf c) last else c
    say (Text.encode (text.map replace))
    return 0
  | _ => return 1

/-- Writes what comes in to files too. -/
def split (files : List String) : Act Nat := do
  let bytes := (← readInput "tee" none).getD []
  say bytes
  changeEach (fun t here p => t.write here p bytes)
    (fun f e => "tee: " ++ f ++ ": " ++ e.errno.text) files

/-- Writes the lines that come in, in their order. -/
def sortLines (args : List String) : Act Nat := do
  let (options, files) := splitOptions args
  match ← readInput "sort" files.head? with
  | some bytes =>
    let ls := (byteLines bytes).map fun l => l.filter (· ≠ 10)
    let sorted := ls.mergeSort fun a b => decide (a ≤ b)
    let sorted := if options.contains 'r' then sorted.reverse else sorted
    let sorted := if options.contains 'u' then sorted.eraseDups else sorted
    say (sorted.flatMap (· ++ [10]))
    return 0
  | none => return 2

def utility? (name : String) : Option (List String → Act Nat) :=
  match name with
  | "true" => some fun _ => return 0
  | ":" => some fun _ => return 0
  | "false" => some fun _ => return 1
  | "echo" => some fun args => do
    say (echoed args)
    return 0
  | "printf" => some fun args => do
    match args with
    | format :: args => say (printed (args.length + 1) format.toList args)
    | [] => complain "printf: usage: printf format [arg ...]"
    return if args.isEmpty then 2 else 0
  | "pwd" => some fun _ => do
    say (Text.encode ((⟨.root, (← get).here⟩ : Path).text ++ "\n").toList)
    return 0
  | "cat" => some fun args => do
    if args.isEmpty then
      say ((← readInput "cat" none).getD [])
      return 0
    else concatenate args
  | "touch" => some (changeEach touchFile
      fun f e => "touch: cannot touch '" ++ f ++ "': " ++ e.errno.text)
  | "mkdir" => some fun args => do
    let (options, files) := splitOptions args
    changeEach (if options.contains 'p' then Tree.makeDirs else Tree.makeDir)
      (fun f e => "mkdir: cannot create directory ‘" ++ f ++ "’: " ++ e.errno.text) files
  | "rm" => some fun args => do
    let (options, files) := splitOptions args
    changeEach (removeAt (options.contains 'f') (options.contains 'r'))
      (fun f e => "rm: cannot remove '" ++ f ++ "': " ++ e.errno.text) files
  | "sleep" => some fun args => do
    modify fun m => { m with slept := m.slept + durationOf (args.headD "0") }
    return 0
  | "seq" => some fun args => do
    say (match args.map argumentNumber with
      | [high] => countUp 1 high
      | [low, high] => countUp low high
      | _ => [])
    return 0
  | "head" => some head
  | "tail" => some tail
  | "ls" => some list
  | "cp" => some (transfer "cp" false)
  | "mv" => some (transfer "mv" true)
  | "tr" => some exchange
  | "tee" => some split
  | "sort" => some sortLines
  | "wc" => some count
  | "basename" => some fun args => do
    say (Text.encode ((pathOf (args.headD "")).name ++ "\n").toList)
    return 0
  | "dirname" => some fun args => do
    say (Text.encode ((pathOf (args.headD "")).parent.text ++ "\n").toList)
    return 0
  | "printenv" => some fun args => do
    match Table.get? (← get).environment (args.headD "") with
    | some v =>
      say (Text.encode (v ++ "\n").toList)
      return 0
    | none => return 1
  | "test" => some (conditionStatus "test")
  | "[" => some fun args => conditionStatus "[" args.dropLast
  | "read" => some fun args => readLine (args.filter (· ≠ "-r"))
  | _ => none

/-- The program with a name, run by itself.  Some utilities are known to the shell only, and as a
program `echo` writes its arguments as they are. -/
def program? (name : String) : Option (List String → Act Nat) :=
  match name with
  | ":" => none
  | "read" => none
  | "echo" => some fun args => do
    let (lineEnd, args) := match args with
      | "-n" :: args => ("", args)
      | args => ("\n", args)
    say (Text.encode (String.intercalate " " args ++ lineEnd).toList)
    return 0
  | _ => utility? name

end JitLens.Shell
