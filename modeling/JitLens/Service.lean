import JitLens.Run
import JitLens.Service.Request
import JitLens.Settings.Store
/-!
# The service

Answers requests for the settings, for changes of them, for the compilers that can be selected,
and for runs.  A run that fails is still an answer; only requests that are malformed, or that ask
for what cannot be, are turned down.
-/

namespace JitLens.Service

open Files

/-- The answer to a request. -/
inductive Response where
  | json (status : Nat) (body : Value)
  /-- A body that was not understood. -/
  | flawed (complaints : List Complaint)

namespace Response

/-- The answer that turns a request down. -/
def refused (status : Nat) (detail : String) : Response :=
  .json status (.map [(.text "detail", .text detail)])

/-- The status of an answer. -/
def status : Response → Nat
  | .json status _ => status
  | .flawed _ => 422

end Response

/-- What the service was started with. -/
structure Config where
  environment : Environment
  host : Host
  tools : Tools
  /-- The settings file, if not the one of the environment. -/
  settingsPath : Option Path := none

def version : String := "0.9.0"

/-- What can be asked for. -/
inductive Route where
  | health
  | readSettings
  | changeSettings
  | listJits
  | run
  deriving DecidableEq, Repr

/-- The routes by path and method. -/
def routes : List (String × String × Route) := [
  ("/api/settings", "GET", .readSettings), ("/api/settings", "PATCH", .changeSettings),
  ("/api/settings/custom-jits", "GET", .listJits), ("/api/disasm", "POST", .run),
  ("/api/health", "GET", .health)]

/-- The path without its query. -/
def pathOf (target : String) : String :=
  String.ofList (target.toList.takeWhile fun c => c != '?' && c != '#')

/-- The path without slashes at its end. -/
def dropSlashes (path : String) : String :=
  String.ofList (path.toList.reverse.dropWhile (· = '/')).reverse

/-- The routes of a path; slashes at its end make no difference. -/
def routesAt (target : String) : List (String × Route) :=
  (routes.filter fun (path, _) => path = dropSlashes (pathOf target)).map Prod.snd

/-- The entries of a mapping with text keys. -/
def changesOf (entries : Entries) : List (String × Value) :=
  entries.map fun (k, v) => (k.display, v)

/-- Settings as data. -/
def settingsValue (s : Settings) : Value :=
  .map (s.toTable.map fun (name, v) => (.text name, v))

/-- The answer with settings and the path of their file. -/
def settingsResponse (s : Settings) (path : String) : Response :=
  .json 200 (.map [(.text "settings", settingsValue s), (.text "path", .text path)])

/-- The answer with an outcome. -/
def outcomeResponse (o : Outcome) : Response :=
  .json 200 (.map [
    (.text "success", .bool o.success), (.text "output", .text o.output),
    (.text "flowgraph_png_path", (o.picture.map Value.text).getD .null),
    (.text "phases", .list (o.phases.map .text)), (.text "elapsed_seconds", .float o.elapsed)])

/-- The settings, or the answer that they cannot be loaded. -/
def loadSettings (c : Config) : Action (Except Response Settings) :=
  tryCatch (do return .ok (← Settings.load c.environment c.settingsPath)) fun f =>
    match f with
    | .settings e => return .error (.refused 500 e.message)
    | f => throw f

/-- The answer to a body that holds no value. -/
def bodyResponse : BodyFault → Response
  | .flawed complaints => .flawed complaints
  | .unreadable => .refused 400 "There was an error parsing the body"

/-- Answers with what a body asks for, or turns the body down. -/
def withBody {α : Type} (r : Request) (check : Value → Checked α)
    (answer : α → Action Response) : Action Response :=
  match bodyValue r with
  | .error e => return bodyResponse e
  | .ok v =>
    match check v with
    | .flawed complaints => return .flawed complaints
    | .good a => answer a

/-- Answers with the settings, or that they cannot be loaded. -/
def withSettings (c : Config) (answer : Settings → Action Response) : Action Response := do
  match ← loadSettings c with
  | .error response => return response
  | .ok s => answer s

/-- Changes settings and saves them. -/
def changeSettings (c : Config) (changes : Entries) (s : Settings) : Action Response := do
  match s.applyAll (changesOf changes) with
  | .error e => return .refused 400 e.message
  | .ok changed =>
    let path ← changed.save c.environment c.settingsPath
    return settingsResponse changed path.text

/-- The order that a body comes down to. -/
def orderOf (body : RunBody) (s : Settings) : Order where
  symbol := body.symbol
  settings := s
  project := body.project
  framework := body.framework
  output := body.output

/-- Runs what a body asks for, with its own changes of the settings. -/
def runOrder (c : Config) (clock : Clock) (body : RunBody) (s : Settings) : Action Response := do
  match s.applyAll (changesOf body.overrides) with
  | .error e => return .refused 400 e.message
  | .ok changed => return outcomeResponse (← (orderOf body changed).run c.tools c.host none clock)

def answerRoute (c : Config) (clock : Clock) (r : Request) : Route → Action Response
  | .health =>
    return .json 200 (.map [(.text "status", .text "ok"), (.text "version", .text version)])
  | .readSettings =>
    withSettings c fun s =>
      return settingsResponse s ((c.settingsPath.map Path.text).getD "")
  | .changeSettings =>
    withBody r changesBody fun changes => withSettings c (changeSettings c changes)
  | .listJits =>
    withSettings c fun s => do
      let b ← get
      let jits := Compiler.offeredJits b.files b.here c.host s
      return .json 200 (.map [
        (.text "jits", .list (jits.map .text)),
        (.text "selected", (s.selectedJit.map Value.text).getD .null)])
  | .run => withBody r runBody fun body => withSettings c (runOrder c clock body)

def answer (c : Config) (clock : Clock) (r : Request) : Action Response :=
  match routesAt r.path with
  | [] => return .refused 404 "Not Found"
  | known =>
    match known.lookup r.method with
    | some route => answerRoute c clock r route
    | none => return .refused 405 "Method Not Allowed"

end JitLens.Service
