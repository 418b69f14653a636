import JitLens.Shell.Glob
import JitLens.Shell.Script
import JitLens.Shell.Sum
import JitLens.Shell.Utility
/-!
# Running scripts

Commands are run one after the other on a machine.  The words of a command are filled in first;
what was not quoted is split into several words at its blanks, and a word that is a pattern stands
for the files that fit it.

Only the command line and test runs use this module; see `JitLens.Shell.Tools`.
-/

namespace JitLens.Shell

open Files
open Text (Bytes)

/-- A part of a word that is filled in. -/
inductive Chunk where
  | whole (cs : List Char)
  /-- Text that is split at its blanks. -/
  | loose (cs : List Char)
  /-- The border between two words. -/
  | border

/-- Characters at which loose text is split. -/
def splits (c : Char) : Bool :=
  c == ' ' || c == '\t' || c == '\n'

/-- The words in loose text, behind the beginning of a word if there is one. -/
def splitLoose : Option (List Glyph) → List Char → List (List Glyph) × Option (List Glyph)
  | current, [] => ([], current)
  | current, c :: cs =>
    if splits c then
      let (words, last) := splitLoose none cs
      (current.toList ++ words, last)
    else splitLoose (some (current.getD [] ++ [⟨false, c⟩])) cs

/-- The words that chunks make, behind the beginning of a word if there is one. -/
def wordsOf : Option (List Glyph) → List Chunk → List (List Glyph)
  | current, [] => current.toList
  | current, .whole cs :: rest => wordsOf (some (current.getD [] ++ cs.map (Glyph.mk true))) rest
  | current, .border :: rest => current.toList ++ wordsOf none rest
  | current, .loose cs :: rest =>
    let (words, last) := splitLoose current cs
    words ++ wordsOf last rest

/-- The text of chunks that are not split. -/
def textOf : List Chunk → List Char
  | [] => []
  | .whole cs :: rest => cs ++ textOf rest
  | .loose cs :: rest => cs ++ textOf rest
  | .border :: rest => ' ' :: textOf rest

/-- The characters of chunks that are not split. -/
def glyphsOf : List Chunk → List Glyph
  | [] => []
  | .whole cs :: rest => cs.map (Glyph.mk true) ++ glyphsOf rest
  | .loose cs :: rest => cs.map (Glyph.mk false) ++ glyphsOf rest
  | .border :: rest => ⟨true, ' '⟩ :: glyphsOf rest

/-- Text as a chunk. -/
def chunk (quoted : Bool) (cs : List Char) : Chunk :=
  if quoted then .whole cs else .loose cs

/-- The arguments as chunks of their own. -/
def borders : List String → List Chunk
  | [] => []
  | [a] => [.whole a.toList]
  | a :: as => .whole a.toList :: .border :: borders as

/-- The text without line ends at its end. -/
def dropLineEnds (cs : List Char) : List Char :=
  (cs.reverse.dropWhile (· = '\n')).reverse

/-- The signals by name. -/
def signals : List (String × Nat) := [
  ("HUP", 1), ("INT", 2), ("QUIT", 3), ("ABRT", 6), ("KILL", 9), ("USR1", 10), ("SEGV", 11),
  ("USR2", 12), ("PIPE", 13), ("ALRM", 14), ("TERM", 15)]

/-- What a shell says about a program that was ended by a signal. -/
def signalTexts : List (Nat × String) := [
  (1, "Hangup"), (3, "Quit"), (6, "Aborted"), (9, "Killed"), (10, "User defined signal 1"),
  (11, "Segmentation fault"), (12, "User defined signal 2"), (14, "Alarm clock"),
  (15, "Terminated")]

/-- The number of a signal. -/
def signalOf (s : String) : Nat :=
  let name :=
    if Text.startsWith ['S', 'I', 'G'] s.toList then String.ofList (s.toList.drop 3) else s
  (signals.lookup name).getD (argumentNumber s).toNat

/-- How a command that kills ends. -/
def kill (args : List String) : Act Flow :=
  let (signal, targets) := match args with
    | "-s" :: s :: ts => (signalOf s, ts)
    | s :: ts => if s.toList.head? = some '-' then (signalOf (String.ofList (s.toList.drop 1)), ts)
        else (15, s :: ts)
    | [] => (15, [])
  if targets.contains Machine.process ∧ signal ≠ 0 then return .killed signal else finish 0

/-- The directories in which programs are looked for. -/
def programFolders : List String := ["/bin/", "/usr/bin/", "/usr/local/bin/"]

/-- The name of a utility that a command names, perhaps by its path. -/
def utilityName (command : String) : String :=
  match programFolders.findSome? fun f => Text.stripLeading f.toList command.toList with
  | some name => String.ofList name
  | none => command

/-- What a command does that the shell knows, or that names a program by its path. -/
def known? (command : String) : Option (List String → Act Nat) :=
  if command.toList.contains '/' then program? (utilityName command) else utility? command

/-- Whether a command names the shell. -/
def isShell (command : String) : Bool :=
  ["sh", "dash"].contains (utilityName command)

/-- The script in the content of a program. -/
def scriptOf? (content : Bytes) : Option (List Char) :=
  let cs := Text.decodeLossy content
  match Text.stripLeading ['#', '!'] cs with
  | some rest =>
    let interpreter := Text.trim (rest.takeWhile (· ≠ '\n'))
    if isShell (String.ofList (interpreter.takeWhile (· ≠ ' '))) then some cs else none
  | none => none

/-- Sets a variable, or several as they stand in words. -/
def setNamed (exports : Bool) : List String → Act Unit
  | [] => return ()
  | a :: as => do
    let (name, value) := match Text.cutAt ['='] a.toList with
      | some (n, v) => (String.ofList n, some (String.ofList v))
      | none => (a, none)
    modify fun m =>
      let m := match value with
        | some v => m.set name v
        | none => m
      if exports then { m with exported := name :: m.exported } else m
    setNamed exports as

/-- Changes the directory. -/
def changeFolder (line : Nat) (folder : String) : Act Flow := do
  let m ← get
  match m.files.locate m.here (pathOf folder) with
  | .ok l =>
    if m.files.look l = some .dir then
      set { m with here := l, status := 0 }
      return .next
    else
      complainAt line ("cd: can't cd to " ++ folder)
      finish 2
  | .error _ =>
    complainAt line ("cd: can't cd to " ++ folder)
    finish 2

/-- Where the file of a redirection is, made empty unless it is added to. -/
def openFile (line : Nat) (append : Bool) (file : String) : Act (Option Sink) := do
  if file = "/dev/null" then return some .nowhere
  let m ← get
  let p := pathOf file
  match m.files.locate m.here p with
  | .error e =>
    complainAt line ("cannot create " ++ file ++ ": " ++
      (if e = .noEntry then "Directory nonexistent" else e.text))
    return none
  | .ok l =>
    match m.files.look l with
    | some .dir =>
      complainAt line ("cannot create " ++ file ++ ": Is a directory")
      return none
    | some (.file content executable) =>
      set { m with files := m.files.putFile l (if append then content else []) executable }
      return some (.file l)
    | none =>
      set { m with files := m.files.putFile l [] false }
      return some (.file l)

def leadTo (stream : Nat) (sink : Sink) : Act Unit :=
  modify fun m =>
    if stream = 1 then { m with outTo := sink }
    else if stream = 2 then { m with errTo := sink }
    else m

def restoreStreams (before m : Machine) : Machine :=
  { m with outTo := before.outTo, errTo := before.errTo }

def restoreVariables (before m : Machine) : Machine :=
  { m with vars := before.vars, exported := before.exported }

/-- What a part of a script that runs apart leaves: all but its variables, its directory and its
arguments. -/
def leaveApart (before m : Machine) : Machine :=
  { restoreVariables before m with
    here := before.here, name := before.name, args := before.args, input := before.input }

/-- The arguments of a shell for a script that ends at the first command that fails. -/
def stoppingAtFailure : List String → List String
  | "-c" :: script :: rest => "-c" :: ("set -e\n" ++ script) :: rest
  | args => args

/-- The machine with the options and arguments that `set` is given. -/
def setOptions (args : List String) (m : Machine) : Machine :=
  match args with
  | [] => m
  | "--" :: rest => { m with args := rest }
  | a :: rest =>
    match a.toList with
    | '-' :: letters => if letters.contains 'e' then { m with stopsAtFailure := true } else m
    | '+' :: letters => if letters.contains 'e' then { m with stopsAtFailure := false } else m
    | _ => { m with args := a :: rest }

/-- The machine with what is still run when the script ends. -/
def setTrap (args : List String) (m : Machine) : Machine :=
  match args with
  | action :: conditions =>
    if conditions.any fun c => c = "EXIT" ∨ c = "0" then
      { m with atExit := if action = "-" then none else some action }
    else m
  | [] => m

/-- Leaves a script or a part of it, with an exit code if one is given. -/
def leaveWith (line : Nat) (command : String) (flow : Flow) : List String → Act Flow
  | [] => return flow
  | n :: _ => do
    if !n.isEmpty && n.toList.all Text.isDigit then
      modify fun m => { m with status := (argumentNumber n % 256).toNat }
      return flow
    else
      complainAt line (command ++ ": Illegal number: " ++ n)
      modify fun m => { m with status := 2 }
      return .exit

/-- Ends the script behind a command that failed, if the script is to end there. -/
def stopAtFailure (flow : Flow) : Act Flow := do
  let m ← get
  if flow = .next ∧ m.stopsAtFailure ∧ m.status ≠ 0 then return .exit else return flow

mutual

/-- Fills in the pieces of a word. -/
def fillIn : Nat → List Piece → Act (List Chunk)
  | 0, _ => return []
  | _, [] => return []
  | fuel + 1, p :: ps => do
    let first ← fillPiece fuel p
    let rest ← fillIn fuel ps
    return first ++ rest

/-- Fills in a piece of a word. -/
def fillPiece : Nat → Piece → Act (List Chunk)
  | 0, _ => return []
  | _ + 1, .text quoted cs => return [chunk quoted cs]
  | fuel + 1, .sum quoted inside => do
    let text := textOf (← fillIn fuel inside)
    let m ← get
    let value (name : String) : Int := ((m.value? name).map argumentNumber).getD 0
    match sumOf value text with
    | .ok n => return [chunk quoted (toString n).toList]
    | .error e =>
      complainAt 1 e.message
      modify fun m => { m with status := 2 }
      return []
  | fuel + 1, .output quoted script => do
    let before ← get
    let start := { before with out := [], outTo := .out }
    let (_, m) := (runText fuel 1 script).run start
    let text := dropLineEnds (Text.decodeLossy (m.out.reverse.filter (· ≠ 0)))
    set { leaveApart before m with out := before.out, outTo := before.outTo }
    return [chunk quoted text]
  | _ + 1, .parameter true "@" .value => return borders (← get).args
  | fuel + 1, .parameter quoted name use => do
    let value := (← get).parameter? name
    let filled := value.isSome && value != some ""
    let whole (s : Option String) : List Chunk := [chunk quoted ((s.getD "").toList)]
    match use with
    | .value => return whole value
    | .length => return [chunk quoted (toString (value.getD "").length).toList]
    | .orElse orEmpty other =>
      if (if orEmpty then filled else value.isSome) then return whole value
      else fillIn fuel other
    | .andThen orEmpty other =>
      if (if orEmpty then filled else value.isSome) then fillIn fuel other else return []
    | .orSet orEmpty other =>
      if (if orEmpty then filled else value.isSome) then return whole value
      else
        let text := String.ofList (textOf (← fillIn fuel other))
        modify fun m => m.set name text
        return whole (some text)
    | .cut fromFront longest pattern =>
      let pieces := piecesOfGlyphs (glyphsOf (← fillIn fuel pattern))
      return [chunk quoted (cutFitting fromFront longest pieces (value.getD "").toList)]

/-- The words that a word of a script comes down to. -/
def fillWord : Nat → Word → Act (List String)
  | 0, _ => return []
  | fuel + 1, w =>
    match w with
    | [.text true [], .parameter true "@" .value] => return (← get).args
    | w => do
      let words := wordsOf none (← fillIn fuel w)
      let m ← get
      return words.flatMap (expandGlyphs m.files m.here (m.value? "HOME"))

/-- The words that words of a script come down to. -/
def fillWords : Nat → List Word → Act (List String)
  | 0, _ => return []
  | _, [] => return []
  | fuel + 1, w :: ws => do
    let first ← fillWord fuel w
    let rest ← fillWords fuel ws
    return first ++ rest

/-- Sets variables. -/
def assign : Nat → List (String × Word) → Act Unit
  | 0, _ => return ()
  | _, [] => return ()
  | fuel + 1, (name, w) :: rest => do
    let text := String.ofList (textOf (← fillIn fuel w))
    modify fun m => m.set name text
    assign fuel rest

/-- Leads streams elsewhere, and says whether that could be done. -/
def redirect : Nat → Nat → List Redirect → Act Bool
  | 0, _, _ => return false
  | _, _, [] => return true
  | fuel + 1, line, r :: rest => do
    let fine ← match r.target with
      | .write append w => do
        let file := String.ofList (textOf (← fillIn fuel w))
        match ← openFile line append file with
        | some sink =>
          leadTo r.stream sink
          pure true
        | none => pure false
      | .read w => do
        let file := String.ofList (textOf (← fillIn fuel w))
        let m ← get
        if file = "/dev/null" then
          set { m with input := [] }
          pure true
        else
          match m.files.read m.here (pathOf file) with
          | .ok bytes =>
            set { m with input := bytes }
            pure true
          | .error _ =>
            complainAt line ("cannot open " ++ file ++ ": No such file")
            pure false
      | .text w => do
        let content := textOf (← fillIn fuel w)
        modify fun m => { m with input := Text.encode content }
        pure true
      | .same w => do
        let m ← get
        match textOf (← fillIn fuel w) with
        | ['1'] => leadTo r.stream m.outTo
        | ['2'] => leadTo r.stream m.errTo
        | ['-'] => leadTo r.stream .nowhere
        | _ => pure ()
        pure true
    if fine then redirect fuel line rest else return false

/-- Runs a script on the machine as it is. -/
def runText : Nat → Nat → List Char → Act Flow
  | 0, _, _ => return .exit
  | fuel + 1, line, cs =>
    match readScript cs with
    | .ok c => run fuel c
    | .error e => do
      complainAt line e.message
      modify fun m => { m with status := 2 }
      return .exit

/-- Runs what is still to be run when a script ends. -/
def runAtExit : Nat → Flow → Act Flow
  | 0, flow => return flow
  | fuel + 1, flow => do
    let m ← get
    match flow, m.atExit with
    | .killed _, _ => return flow
    | _, none => return flow
    | _, some script => do
      set { m with atExit := none }
      match ← runText fuel 1 script.toList with
      | .killed signal => return .killed signal
      | .exit => return .exit
      | _ => do
        modify fun last => { last with status := m.status }
        return flow

/-- Runs a script as a program of its own. -/
def runProgram : Nat → List Char → String → List String → Act Flow
  | 0, _, _, _ => return .exit
  | fuel + 1, script, name, args => do
    let before ← get
    set { before with
      name := name
      args := args
      vars := before.environment
      functions := []
      stopsAtFailure := false
      atExit := none
      status := 0 }
    let flow ← runAtExit fuel (← runText fuel 1 script)
    modify fun m => leaveApart before m
    match flow with
    | .killed signal => return .killed signal
    | _ => return .next

/-- Runs a program that is named by its path. -/
def runFile : Nat → Nat → String → List String → Act Flow
  | 0, _, _, _ => return .exit
  | fuel + 1, line, name, args => do
    let m ← get
    match m.files.lookAt m.here (pathOf name) with
    | none =>
      complainAt line (name ++ ": not found")
      finish 127
    | some (.file content true) =>
      match scriptOf? content with
      | some script => runProgram fuel script name args
      | none => runProgram fuel (Text.decodeLossy content) name args
    | some _ =>
      complainAt line (name ++ ": Permission denied")
      finish 126

/-- Runs the shell by its name. -/
def runShell : Nat → String → List String → Act Flow
  | 0, _, _ => return .exit
  | fuel + 1, name, args =>
    match args with
    | "-c" :: script :: rest =>
      runProgram fuel script.toList (rest.headD name) (rest.drop 1)
    | ["-c"] => do
      complain (name ++ ": 0: -c requires an argument")
      finish 2
    | "-e" :: rest => runShell fuel name (stoppingAtFailure rest)
    | "-ec" :: rest => runShell fuel name (stoppingAtFailure ("-c" :: rest))
    | file :: rest => do
      let m ← get
      match m.files.read m.here (pathOf file) with
      | .ok content => runProgram fuel (Text.decodeLossy content) file rest
      | .error _ =>
        complain (name ++ ": 0: cannot open " ++ file ++ ": No such file")
        finish 2
    | [] => do
      let m ← get
      set { m with input := [] }
      runProgram fuel (Text.decodeLossy m.input) name []

/-- Runs a program by its name, in a process of its own. -/
def runOutside : Nat → Nat → String → List String → Act Flow
  | 0, _, _, _ => return .exit
  | fuel + 1, line, name, args =>
    if isShell name then runShell fuel name args
    else
      match known? name with
      | some act => do finish (← act args)
      | none =>
        if name.toList.contains '/' then runFile fuel line name args
        else do
          complainAt line (name ++ ": not found")
          finish 127

/-- Runs a command by its name.  A signal that ends another process is noted in the status. -/
def runNamed : Nat → Nat → String → List String → Act Flow
  | 0, _, _, _ => return .exit
  | fuel + 1, line, name, args =>
    match name with
    | "exit" => leaveWith line name .exit args
    | "return" => leaveWith line name .leaveFunction args
    | "break" => do
      modify fun m => { m with status := 0 }
      return .leaveLoop
    | "continue" => do
      modify fun m => { m with status := 0 }
      return .nextRound
    | "cd" => do
      let home := ((← get).value? "HOME").getD "/"
      changeFolder line (args.headD home)
    | "export" => do
      setNamed true args
      finish 0
    | "unset" => do
      modify fun m => { m with vars := m.vars.filter fun (k, _) => !args.contains k }
      finish 0
    | "shift" => do
      modify fun m => { m with args := m.args.drop 1 }
      finish 0
    | "set" => do
      modify (setOptions args)
      finish 0
    | "trap" => do
      modify (setTrap args)
      finish 0
    | "wait" => finish 0
    | "kill" => kill args
    | "exec" =>
      match args with
      | [] => finish 0
      | name :: args => do
        match ← runOutside fuel line name args with
        | .next => return .exit
        | flow => return flow
    | "eval" => runText fuel line (String.intercalate " " args).toList
    | "env" => do
      let before ← get
      let (assignments, command) := args.span fun a => a.toList.contains '='
      setNamed true assignments
      let flow ← match command with
        | name :: args => runOutside fuel line name args
        | [] => do
          let m ← get
          say (Text.encode (m.environment.flatMap fun (k, v) => (k ++ "=" ++ v ++ "\n").toList))
          finish 0
      modify (restoreVariables before)
      return flow
    | _ => do
      match (← get).functions.lookup name with
      | some body => runFunction fuel body args
      | none =>
        match ← runOutside fuel line name args with
        | .killed signal => do
          if let some text := signalTexts.lookup signal then complain text
          finish (128 + signal)
        | flow => return flow

/-- Runs a part of the script that has a name. -/
def runFunction : Nat → Command → List String → Act Flow
  | 0, _, _ => return .exit
  | fuel + 1, body, args => do
    let before ← get
    set { before with args := args }
    let flow ← run fuel body
    modify fun m => { m with args := before.args }
    match flow with
    | .leaveFunction => return .next
    | flow => return flow

/-- Runs a simple command. -/
def runSimple : Nat → Nat → List (String × Word) → List Word → List Redirect → Act Flow
  | 0, _, _, _, _ => return .exit
  | fuel + 1, line, assignments, words, redirects => do
    let before ← get
    let filled ← fillWords fuel words
    let fine ← redirect fuel line redirects
    let flow ←
      if !fine then finish 2
      else
        match filled with
        | [] => do
          modify fun m => { m with status := 0 }
          assign fuel assignments
          pure .next
        | name :: args => do
          assign fuel assignments
          modify fun m => { m with exported := assignments.map Prod.fst ++ m.exported }
          let flow ← runNamed fuel line name args
          if !assignments.isEmpty then modify (restoreVariables before)
          pure flow
    if filled != ["exec"] then modify (restoreStreams before)
    return flow

/-- Runs commands one after the other. -/
def runAll : Nat → List Command → Act Flow
  | 0, _ => return .exit
  | _, [] => return .next
  | fuel + 1, c :: cs => do
    match ← run fuel c with
    | .next => runAll fuel cs
    | flow => return flow

/-- Runs a body as long as a condition says so. -/
def runLoop : Nat → Bool → Command → Command → Act Flow
  | 0, _, _, _ => return .exit
  | fuel + 1, onSuccess, condition, body => do
    match ← runQuietly fuel condition with
    | .next =>
      if ((← get).status == 0) == onSuccess then
        match ← run fuel body with
        | .next => runLoop fuel onSuccess condition body
        | .nextRound => runLoop fuel onSuccess condition body
        | .leaveLoop => finish 0
        | flow => return flow
      else finish 0
    | flow => return flow

/-- Runs a body for each of several values. -/
def runEach : Nat → String → List String → Command → Act Flow
  | 0, _, _, _ => return .exit
  | _, _, [], _ => return .next
  | fuel + 1, name, value :: rest, body => do
    modify fun m => m.set name value
    match ← run fuel body with
    | .next => runEach fuel name rest body
    | .nextRound => runEach fuel name rest body
    | .leaveLoop => finish 0
    | flow => return flow

/-- Runs the first branch with a pattern that a text fits. -/
def runBranches : Nat → List Char → List (List Word × Command) → Act Flow
  | 0, _, _ => return .exit
  | _, _, [] => finish 0
  | fuel + 1, subject, (patterns, body) :: rest => do
    if ← fitsAny fuel subject patterns then
      modify fun m => { m with status := 0 }
      run fuel body
    else runBranches fuel subject rest

/-- Whether a text fits one of several patterns. -/
def fitsAny : Nat → List Char → List Word → Act Bool
  | 0, _, _ => return false
  | _, _, [] => return false
  | fuel + 1, subject, w :: ws => do
    let pieces := piecesOfGlyphs (glyphsOf (← fillIn fuel w))
    if fits pieces subject then return true else fitsAny fuel subject ws

/-- Runs a command whose failure does not end the script. -/
def runQuietly : Nat → Command → Act Flow
  | 0, _ => return .exit
  | fuel + 1, c => do
    let stops := (← get).stopsAtFailure
    modify fun m => { m with stopsAtFailure := false }
    let flow ← run fuel c
    modify fun m => { m with stopsAtFailure := stops }
    return flow

/-- Runs a command apart from the script around it. -/
def runApart : Nat → Command → Act Flow
  | 0, _ => return .exit
  | fuel + 1, c => do
    let before ← get
    let flow ← run fuel c
    modify (leaveApart before)
    match flow with
    | .killed signal => return .killed signal
    | _ => return .next

def run : Nat → Command → Act Flow
  | 0, _ => return .exit
  | fuel + 1, c =>
    match c with
    | .simple line assignments words redirects => do
      stopAtFailure (← runSimple fuel line assignments words redirects)
    | .sequence cs => runAll fuel cs
    | .chain onSuccess first second => do
      match ← runQuietly fuel first with
      | .next =>
        if ((← get).status == 0) == onSuccess then run fuel second else return .next
      | flow => return flow
    | .pipe first second => do
      let before ← get
      set { before with out := [], outTo := .out }
      let _ ← runApart fuel first
      let between ← get
      set { between with
        out := before.out
        outTo := before.outTo
        input := between.out.reverse }
      let flow ← runApart fuel second
      modify fun m => { m with input := before.input }
      stopAtFailure flow
    | .negation c => do
      match ← runQuietly fuel c with
      | .next => do
        let status := (← get).status
        finish (if status = 0 then 1 else 0)
      | flow => return flow
    | .loop onSuccess condition body => runLoop fuel onSuccess condition body
    | .choice condition thenBody elseBody => do
      match ← runQuietly fuel condition with
      | .next =>
        if (← get).status = 0 then run fuel thenBody
        else do
          modify fun m => { m with status := 0 }
          run fuel elseBody
      | flow => return flow
    | .forEach name words body => do
      let values ← match words with
        | some ws => fillWords fuel ws
        | none => do pure (← get).args
      modify fun m => { m with status := 0 }
      runEach fuel name values body
    | .select subject branches => do
      let text := textOf (← fillIn fuel subject)
      runBranches fuel text branches
    | .define name body => do
      modify fun m => { m with functions := (name, body) :: m.functions }
      finish 0
    | .group apart body redirects => do
      let before ← get
      if ← redirect fuel 1 redirects then
        let flow ← if apart then runApart fuel body else run fuel body
        modify (restoreStreams before)
        if apart then stopAtFailure flow else return flow
      else
        modify (restoreStreams before)
        finish 2
    | .background c => do
      let _ ← runApart fuel c
      finish 0

end

/-- How many steps a script may take. -/
def mostSteps : Nat := 1000000

end JitLens.Shell
