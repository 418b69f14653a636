import JitLens.CommandLine
import JitLens.Proofs.CommandLine.Choices
import JitLens.Proofs.Json.RoundTrip
import JitLens.Proofs.Run.Token
import JitLens.Proofs.Settings.Save
import JitLens.Proofs.Symbol
import JitLens.Service
/-!
# The command line and the service agree

The same query can be put to the command line, in words, and to the service, as a JSON body.  The
two come to the same run by different ways: a symbol is cut out of a text or read from its own
entries, changes of settings are parsed from items or taken as data, and only the command line
gives the run a token.  Neither way loses anything of the query.
-/

namespace JitLens

open Files JitLens.Action

/-! ## Symbols as texts -/

theorem Text.cutAt_eq_none {sep cs : List Char} (hcs : contains sep cs = false) :
    cutAt sep cs = none := by
  unfold contains at hcs
  simpa using hcs

/-- A text without two colons in a row is all that is before the first two colons behind it, unless
it ends with a colon itself. -/
theorem Text.cutAt_colons {cs : List Char} (hcolons : contains [':', ':'] cs = false)
    (hlast : cs.getLast? ≠ some ':') (rest : List Char) :
    cutAt [':', ':'] (cs ++ ':' :: ':' :: rest) = some (cs, rest) := by
  have hfirst : ¬ [':', ':'] <:+: cs ++ [':'] := by
    rw [List.infix_concat_iff, not_or, ← contains_iff, hcolons]
    refine ⟨?_, Bool.false_ne_true⟩
    rintro ⟨ds, hds⟩
    have hcolon : (ds ++ [':']) ++ [':'] = cs ++ [':'] := by simpa using hds
    exact hlast (List.append_cancel_right hcolon ▸ List.getLast?_concat)
  rw [← cutAt_append hfirst rest, List.append_assoc]
  rfl

theorem Symbol.nonEmpty?_toList {s : String} (hs : s ≠ "") (htrimmed : Text.trimmed s = s) :
    nonEmpty? s.toList = some s :=
  nonEmpty?_eq_some_iff.2 ⟨hs, htrimmed.symm⟩

/-! ## Commands -/

namespace CommandLine

theorem adjusted_eq (a : Arguments) (qualified : String) (method : Option String) :
    adjusted a ⟨qualified, Symbol.simpleName qualified, method, a.localFunction, false⟩ =
      Service.symbolOf qualified a.className method a.localFunction a.genericMethod := by
  unfold adjusted Service.symbolOf
  cases a.genericMethod <;> cases a.className with
  | none => rfl
  | some name => by_cases hname : name = "" <;> simp [hname]

/-- The settings of a command, when they load and take the changes. -/
theorem run_settings {e : Environment} {a : Arguments} {b b₁ : Bench} {s changed : Settings}
    {changes : Table Value}
    (hload : (Settings.load e (a.settings.map Path.ofString)).run.run b = (.ok s, b₁))
    (hparse : Settings.parseOverrides a.overrides = .ok changes)
    (happly : s.applyAll changes = .ok changed) :
    (settings e a).run.run b = (.ok (.ok changed), b₁) := by
  apply run_tryCatch_ok
  rw [run_bind_ok hload]
  split
  · next hempty =>
      rw [List.isEmpty_iff.1 hempty] at hparse
      obtain rfl : [] = changes := Except.ok.inj hparse
      obtain rfl : s = changed := Except.ok.inj happly
      rfl
  · simp only [hparse, happly]
    rfl

theorem run_runOrder {tools : Tools} {host : Host} {clock : Clock} {o : Order} {b last : Bench}
    {outcome : Outcome} (hrun : (o.run tools host none clock).run b = (outcome, last))
    (a : Arguments) : (runOrder tools host clock a o).run.run b =
      (.ok ((shown a outcome).behind (last.statuses.drop b.statuses.length)), last) := by
  unfold runOrder
  rw [run_bind_ok (run_get b), run_bind_ok (run_liftM hrun)]
  rfl

end CommandLine

/-! ## Queries -/

/-- What is asked of either front end: options, a project, and a class or a method of it. -/
structure Query where
  /-- The options before the project and those behind the symbol. -/
  before : List CommandLine.Choice
  after : List CommandLine.Choice
  project : String
  qualified : String
  method : Option String

namespace Query

def options (q : Query) : CommandLine.Arguments :=
  (q.before ++ q.after).foldl CommandLine.Choice.applyTo {}

def symbolText (q : Query) : String :=
  match q.method with
  | none => q.qualified
  | some m => q.qualified ++ "::" ++ m

def argv (q : Query) : List String :=
  q.before.flatMap CommandLine.Choice.argv ++
    q.project :: q.symbolText :: q.after.flatMap CommandLine.Choice.argv

def settingsPath (q : Query) : Option Path :=
  q.options.settings.map Path.ofString

def symbol (q : Query) : Symbol :=
  Service.symbolOf q.qualified q.options.className q.method q.options.localFunction
    q.options.genericMethod

/-- The run that is asked for, with the settings after all changes. -/
def order (q : Query) (s : Settings) : Order where
  symbol := q.symbol
  settings := s
  project := q.project
  framework := q.options.framework
  output := q.options.outputDir

/-- Queries for a run whose outcome is shown as JSON, with names that stand in a text as they
are. -/
structure Sound (q : Query) : Prop where
  spelled : ∀ c ∈ q.before ++ q.after, c.Spelled
  json : q.options.json = true
  /-- The changes are for this run only. -/
  keeps : q.options.save = false
  /-- Compilers are not listed instead. -/
  runs : q.options.listJits = false
  project_ne : q.project ≠ ""
  project : CommandLine.Plain q.project
  qualified_ne : q.qualified ≠ ""
  qualified : CommandLine.Plain q.qualified
  qualified_trimmed : Text.trimmed q.qualified = q.qualified
  noColons : Text.contains [':', ':'] q.qualified.toList = false
  noColon : q.qualified.toList.getLast? ≠ some ':'
  method : ∀ m, q.method = some m → m ≠ "" ∧ Text.trimmed m = m

variable {q : Query}

/-! ## The way of the command line -/

theorem Sound.symbolText_ne (hq : q.Sound) : q.symbolText ≠ "" := by
  unfold symbolText
  cases q.method with
  | none => exact hq.qualified_ne
  | some m =>
      intro hempty
      rw [String.append_eq_empty_iff, String.append_eq_empty_iff] at hempty
      exact hq.qualified_ne hempty.1.1

theorem Sound.symbolText (hq : q.Sound) : CommandLine.Plain q.symbolText := by
  have hplain := hq.qualified
  unfold Query.symbolText
  cases q.method with
  | none => exact hplain
  | some m =>
      unfold CommandLine.Plain at hplain ⊢
      cases hletters : q.qualified.toList with
      | nil => exact absurd (String.toList_eq_nil_iff.1 hletters) hq.qualified_ne
      | cons c cs =>
          rw [hletters] at hplain
          simpa [hletters] using hplain

/-- The class and the method are found again in the text of the symbol. -/
theorem Sound.parse_symbolText (hq : q.Sound) (isLocal : Bool) :
    Symbol.parse q.symbolText isLocal =
      .ok ⟨q.qualified, Symbol.simpleName q.qualified, q.method, isLocal, false⟩ := by
  have hqualified := Symbol.nonEmpty?_toList hq.qualified_ne hq.qualified_trimmed
  unfold Symbol.parse Query.symbolText
  cases hmethod : q.method with
  | none =>
      simp only [Text.cutAt_eq_none hq.noColons, hqualified]
  | some m =>
      obtain ⟨hm, hm_trimmed⟩ := hq.method m hmethod
      have htext : (q.qualified ++ "::" ++ m).toList =
          q.qualified.toList ++ ':' :: ':' :: m.toList := by
        simp
      simp only [htext, Text.cutAt_colons hq.noColons hq.noColon, hqualified,
        Symbol.nonEmpty?_toList hm hm_trimmed]

/-- The arguments that the command line is read as. -/
def arguments (q : Query) : CommandLine.Arguments :=
  { q.options with project := some q.project, symbol := some q.symbolText }

theorem Sound.read_argv (hq : q.Sound) :
    CommandLine.Arguments.read q.argv = .ok q.arguments :=
  CommandLine.read_argv (fun c hc => hq.spelled c (List.mem_append_left _ hc))
    (fun c hc => hq.spelled c (List.mem_append_right _ hc)) hq.project hq.symbolText

theorem Sound.perform_eq (hq : q.Sound) (tools : Tools) (host : Host) (clock : Clock)
    (s : Settings) : CommandLine.perform tools host clock q.arguments s =
      CommandLine.runOrder tools host clock q.arguments (q.order s) := by
  have hruns : q.arguments.listJits = false := hq.runs
  have hproject : CommandLine.filled? q.arguments.project = some q.project := by
    simp [CommandLine.filled?, arguments, hq.project_ne]
  have hsymbol : CommandLine.filled? q.arguments.symbol = some q.symbolText := by
    simp [CommandLine.filled?, arguments, hq.symbolText_ne]
  unfold CommandLine.perform
  simp only [hruns, hproject, hsymbol, Bool.false_eq_true, if_false]
  unfold CommandLine.runSymbol
  rw [hq.parse_symbolText]
  dsimp only
  unfold CommandLine.order
  rw [CommandLine.adjusted_eq]
  rfl

/-- What the command line makes of a query. -/
theorem Sound.run_command (hq : q.Sound) {tools : Tools} {host : Host} {e : Environment}
    {clock : Clock} {b b₁ last : Bench} {s changed : Settings} {changes : Table Value}
    {o : Outcome}
    (hload : (Settings.load e q.settingsPath).run.run b = (.ok s, b₁))
    (hparse : Settings.parseOverrides q.options.overrides = .ok changes)
    (happly : s.applyAll changes = .ok changed)
    (hrun : ((q.order changed).run tools host none clock).run b₁ = (o, last)) :
    ∃ reported, (CommandLine.run tools host e clock q.argv).run.run b =
      (.ok (((CommandLine.shown q.arguments o).behind reported).behind []), last) := by
  have hsettings : (CommandLine.settings e q.arguments).run.run b = (.ok (.ok changed), b₁) :=
    CommandLine.run_settings hload hparse happly
  have hsaved : (CommandLine.saved e q.arguments changed).run.run b₁ = (.ok [], b₁) := by
    have hkeeps : q.arguments.save = false := hq.keeps
    unfold CommandLine.saved
    rw [hkeeps]
    rfl
  refine ⟨last.statuses.drop b₁.statuses.length, ?_⟩
  unfold CommandLine.run
  rw [hq.read_argv]
  dsimp only
  unfold CommandLine.runArguments
  rw [run_bind_ok hsettings]
  dsimp only
  rw [run_bind_ok hsaved, hq.perform_eq, run_bind_ok (CommandLine.run_runOrder hrun _)]
  rfl

/-! ## The way of the service -/

/-- What an entry says that holds a text or nothing; it may be left out for nothing. -/
def SaysText (entries : Service.Entries) (key : String) (t : Option String) : Prop :=
  Service.entry? entries key = t.map Value.text ∨
    t = none ∧ Service.entry? entries key = some .null

/-- What an entry says that holds a switch; it may be left out for a switch that is off. -/
def SaysSwitch (entries : Service.Entries) (key : String) (b : Bool) : Prop :=
  Service.entry? entries key = some (.bool b) ∨
    b = false ∧ Service.entry? entries key = none

/-- What an entry says that holds changes of settings; it may be left out for none. -/
def SaysChanges (entries : Service.Entries) (key : String) (changes : Table Value) : Prop :=
  Service.entry? entries key = some (.map (changes.map fun (name, v) => (.text name, v))) ∨
    changes = [] ∧ Service.entry? entries key = none

/-- A body that asks for the same as the query, whose changes have been parsed, and the entries for
the symbol in it. -/
structure Posted (q : Query) (changes : Table Value) (body inner : Service.Entries) : Prop where
  project : Service.entry? body "project_path" = some (.text q.project)
  framework : Service.entry? body "target_framework" = some (.text q.options.framework)
  symbol : Service.entry? body "symbol" = some (.map inner)
  output : SaysText body "output_dir" q.options.outputDir
  overrides : SaysChanges body "overrides" changes
  qualified : Service.entry? inner "qualified_class_name" = some (.text q.qualified)
  className : SaysText inner "class_name" q.options.className
  method : SaysText inner "method_name" q.method
  isLocal : SaysSwitch inner "is_local_function" q.options.localFunction
  isGeneric : SaysSwitch inner "is_generic_method" q.options.genericMethod

/-- A request for the same as the query. -/
structure Posts (q : Query) (changes : Table Value) (r : Service.Request) : Prop where
  method : r.method = "POST"
  path : r.path = "/api/disasm"
  body : ∃ body inner, Service.bodyValue r = .ok (.map body) ∧ q.Posted changes body inner

theorem SaysText.optional {entries : Service.Entries} {key : String} {t : Option String}
    (h : SaysText entries key t) (place : List String) :
    Service.optional Service.textOrNull none place entries key = .good t := by
  unfold Service.optional
  rcases h with h | ⟨rfl, h⟩
  · rw [h]
    cases t <;> rfl
  · rw [h]
    rfl

theorem SaysSwitch.optional {entries : Service.Entries} {key : String} {b : Bool}
    (h : SaysSwitch entries key b) (place : List String) :
    Service.optional Service.switch false place entries key = .good b := by
  unfold Service.optional
  rcases h with h | ⟨rfl, h⟩
  · rw [h]
    rfl
  · rw [h]

theorem SaysChanges.optional {entries : Service.Entries} {key : String} {changes : Table Value}
    (h : SaysChanges entries key changes) (place : List String) :
    Service.optional Service.mapping [] place entries key =
      .good (changes.map fun (name, v) => (.text name, v)) := by
  unfold Service.optional
  rcases h with h | ⟨rfl, h⟩
  · rw [h]
    rfl
  · rw [h]
    rfl

def runBody (q : Query) (changes : Table Value) : Service.RunBody where
  project := q.project
  framework := q.options.framework
  symbol := q.symbol
  output := q.options.outputDir
  overrides := changes.map fun (name, v) => (.text name, v)

theorem Posted.runBody {changes : Table Value} {body inner : Service.Entries}
    (h : q.Posted changes body inner) :
    Service.runBody (.map body) = .good (q.runBody changes) := by
  have hsymbol : Service.symbol (Service.bodyPlace ++ ["symbol"]) (.map inner) =
      .good q.symbol := by
    unfold Service.symbol Service.required
    simp only [Service.object, Service.Checked.inside, h.qualified, h.className.optional,
      h.method.optional, h.isLocal.optional, h.isGeneric.optional]
    rfl
  unfold Service.runBody Service.required
  simp only [Service.object, Service.Checked.inside, h.project, h.framework, h.symbol, hsymbol,
    h.output.optional, h.overrides.optional]
  rfl

/-- Changes keep their names as entries of a body. -/
theorem changesOf_map (changes : Table Value) :
    Service.changesOf (changes.map fun (name, v) => (.text name, v)) = changes := by
  unfold Service.changesOf
  rw [List.map_map]
  exact List.map_id' changes

/-- What the service makes of a request. -/
theorem Posts.run_request {c : Service.Config} {clock : Clock} {r : Service.Request}
    {b b₁ last : Bench} {s changed : Settings} {changes : Table Value} {o : Outcome}
    (hposts : q.Posts changes r)
    (hload : (Settings.load c.environment c.settingsPath).run.run b = (.ok s, b₁))
    (happly : s.applyAll changes = .ok changed)
    (hrun : ((q.order changed).run c.tools c.host none clock).run b₁ = (o, last)) :
    (Service.answer c clock r).run.run b =
      (.ok (.json 200 (CommandLine.outcomeValue o)), last) := by
  have hroute : Service.answer c clock r = Service.answerRoute c clock r .run := by
    unfold Service.answer
    rw [hposts.path, hposts.method]
    rfl
  have hsettings : (Service.loadSettings c).run.run b = (.ok (.ok s), b₁) := by
    apply run_tryCatch_ok
    rw [run_bind_ok hload]
    rfl
  obtain ⟨body, inner, hbody, hposted⟩ := hposts.body
  rw [hroute, Service.answerRoute, Service.withBody, hbody]
  simp only [hposted.runBody]
  unfold Service.withSettings
  rw [run_bind_ok hsettings]
  dsimp only
  unfold Service.runOrder
  simp only [runBody, changesOf_map, happly]
  exact (run_bind_ok (run_liftM hrun)).trans rfl

/-! ## Requests for queries -/

def textValue (t : Option String) : Value :=
  (t.map Value.text).getD .null

def symbolEntries (q : Query) : List (String × Value) := [
  ("qualified_class_name", .text q.qualified), ("class_name", textValue q.options.className),
  ("method_name", textValue q.method), ("is_local_function", .bool q.options.localFunction),
  ("is_generic_method", .bool q.options.genericMethod)]

/-- The entries of a body that asks for the same as the query. -/
def bodyEntries (q : Query) (changes : Table Value) : List (String × Value) := [
  ("project_path", .text q.project), ("target_framework", .text q.options.framework),
  ("symbol", .map (q.symbolEntries.map fun (name, v) => (.text name, v))),
  ("output_dir", textValue q.options.outputDir),
  ("overrides", .map (changes.map fun (name, v) => (.text name, v)))]

/-- A request for the same as the query. -/
def request (q : Query) (changes : Table Value) : Service.Request where
  method := "POST"
  path := "/api/disasm"
  body := some (Json.write .line (.map ((q.bodyEntries changes).map fun (name, v) =>
    (.text name, v))))

theorem saysText_textValue {entries : Service.Entries} {key : String} {t : Option String}
    (h : Service.entry? entries key = some (textValue t)) : SaysText entries key t := by
  cases t with
  | none => exact .inr ⟨rfl, h⟩
  | some t => exact .inl h

theorem posted_bodyEntries (q : Query) (changes : Table Value) :
    q.Posted changes ((q.bodyEntries changes).map fun (name, v) => (.text name, v))
      (q.symbolEntries.map fun (name, v) => (.text name, v)) where
  project := rfl
  framework := rfl
  symbol := rfl
  output := saysText_textValue rfl
  overrides := .inl rfl
  qualified := rfl
  className := saysText_textValue rfl
  method := saysText_textValue rfl
  isLocal := .inl rfl
  isGeneric := .inl rfl

/-- Values that fields take are texts, switches and nothing. -/
theorem written_of_check {name : String} {v : Value} {c : Change} {d : Nat}
    (hcheck : Change.check name v = .ok c) : Json.Written (d + 1) v := by
  unfold Change.check at hcheck
  cases hfield : Field.ofName? name with
  | none => simp [hfield] at hcheck
  | some f =>
      rw [hfield] at hcheck
      cases v with
      | null => exact .null
      | bool b => exact .bool b
      | text s => exact .text s
      | _ => cases f <;> cases hcheck

theorem written_of_applyAll {s changed : Settings} {changes : List (String × Value)} {d : Nat}
    (happly : s.applyAll changes = .ok changed) :
    ∀ e ∈ changes, Json.Written (d + 1) e.2 := by
  induction changes generalizing s with
  | nil => simp
  | cons e changes ih =>
      obtain ⟨name, v⟩ := e
      rw [Settings.applyAll] at happly
      cases hcheck : Change.check name v with
      | error err => simp [hcheck] at happly
      | ok c =>
          rw [hcheck] at happly
          rw [List.forall_mem_cons]
          exact ⟨written_of_check hcheck, ih happly⟩

theorem nodup_parseOverrides {items : List String} {changes : Table Value}
    (hparse : Settings.parseOverrides items = .ok changes) : (changes.map Prod.fst).Nodup := by
  unfold Settings.parseOverrides at hparse
  cases hitems : items.mapM Settings.parseOverride with
  | error e => simp [hitems, Except.map] at hparse
  | ok entries =>
      rw [hitems] at hparse
      obtain rfl := Except.ok.inj hparse
      exact Table.nodup_ofList entries

theorem written_textValue {d : Nat} (t : Option String) : Json.Written (d + 1) (textValue t) := by
  cases t with
  | none => exact .null
  | some t => exact .text t

/-- Every query whose changes are accepted can be put to the service. -/
theorem posts_request {s changed : Settings} {changes : Table Value} (q : Query)
    (hparse : Settings.parseOverrides q.options.overrides = .ok changes)
    (happly : s.applyAll changes = .ok changed) : q.Posts changes (q.request changes) where
  method := rfl
  path := rfl
  body := by
    refine ⟨_, _, ?_, q.posted_bodyEntries changes⟩
    -- The symbol is an object inside of the body, so it may be one less deep.
    have hsymbol : Json.Written 949 (.map (q.symbolEntries.map fun (name, v) => (.text name, v))) := by
      apply Json.Written.map (by simp [symbolEntries])
      simp only [symbolEntries, List.forall_mem_cons]
      exact ⟨.text _, written_textValue _, written_textValue _, .bool _, .bool _, by simp⟩
    have hbody : Json.Written Json.mostDepth
        (.map ((q.bodyEntries changes).map fun (name, v) => (.text name, v))) := by
      apply Json.Written.map (by simp [bodyEntries])
      simp only [bodyEntries, List.forall_mem_cons]
      exact ⟨.text _, .text _, hsymbol, written_textValue _,
        .map (nodup_parseOverrides hparse) (written_of_applyAll happly), by simp⟩
    have hread := Json.read_write hbody
    obtain ⟨cs, htext⟩ : ∃ cs, (Json.write .line
        (.map ((q.bodyEntries changes).map fun (name, v) => (.text name, v)))).toList =
          '\x7b' :: cs := ⟨_, Json.toList_writeAt_map _ _⟩
    rw [htext] at hread
    have hmark : Service.dropMark ('\x7b' :: cs) = '\x7b' :: cs := rfl
    have hne : Json.write .line
        (.map ((q.bodyEntries changes).map fun (name, v) => (.text name, v))) ≠ "" := by
      intro hempty
      rw [hempty] at htext
      cases htext
    unfold Service.bodyValue request
    simp only [if_neg hne, htext, hmark, hread]

/-! ## Both ways -/

/-- What a command and a request have left, when they agree on an outcome. -/
structure Agree (command : Except Failure CommandLine.Transcript × Bench)
    (request : Except Failure Service.Response × Bench) (o : Outcome) : Prop where
  /-- The command prints the outcome, and its exit code says whether it is a success. -/
  printed : ∃ t, command.1 = .ok t ∧
    t.out = CommandLine.linesText [Json.write .indented (CommandLine.outcomeValue o)] ∧
    (t.exit = 0 ↔ o.success = true)
  /-- The request is answered with the outcome. -/
  answered : request.1 = .ok (.json 200 (CommandLine.outcomeValue o))
  calls : command.2.calls = request.2.calls
  files : command.2.files = request.2.files

/-- A query has the same outcome on the command line, where the run has a token that nobody cancels,
and through the service: that of the run that it asks for. -/
theorem frontEnds_agree {q : Query} {c : Service.Config} {clock : Clock} {r : Service.Request}
    {b b₁ : Bench} {k : Option Token} {s changed : Settings} {changes : Table Value}
    (hq : q.Sound) (hposts : q.Posts changes r) (hsettings : c.settingsPath = q.settingsPath)
    (hload : (Settings.load c.environment q.settingsPath).run.run b = (.ok s, b₁))
    (hparse : Settings.parseOverrides q.options.overrides = .ok changes)
    (happly : s.applyAll changes = .ok changed) (hquiet : c.tools.Quiet)
    (hb : b.Uncancelled) (hk : ∀ t, k = some t → t.cancelled = false) :
    Agree ((CommandLine.run c.tools c.host c.environment clock q.argv).run.run (b.withToken k))
      ((Service.answer c clock r).run.run b)
      (((q.order changed).run c.tools c.host none clock).run b₁).1 := by
  rcases hrun : ((q.order changed).run c.tools c.host none clock).run b₁ with ⟨o, last⟩
  -- Neither the settings nor the run depend on the token.
  obtain ⟨hload', hb₁⟩ := Settings.tokenFree_load (k := k) c.environment q.settingsPath b hb
  rw [hload] at hload' hb₁
  obtain ⟨hrun', -⟩ := Order.tokenFree_run hk hquiet c.host none clock (q.order changed) b₁ hb₁
  rw [hrun] at hrun'
  obtain ⟨reported, hcommand⟩ := hq.run_command hload' hparse happly hrun'
  have hrequest := hposts.run_request (hsettings ▸ hload) happly hrun
  have hjson : q.arguments.json = true := hq.json
  rw [hcommand, hrequest, CommandLine.shown, if_pos hjson]
  refine ⟨⟨_, rfl, rfl, ?_⟩, rfl, rfl, rfl⟩
  change CommandLine.exitCode o = 0 ↔ _
  unfold CommandLine.exitCode
  cases o.success <;> simp

/-- A method whose names have blanks and colons, with changes of a switch and of a text. -/
def indexer : Query where
  before := [.on "--json" .json, .value "--set" .override "use_pgo=true"]
  after := [.value "-f" .framework "net9.0", .value "--class-name" .className "<Main>$",
    .on "--local-function" .localFunction, .value "--set" .override "arch= x64"]
  project := "My App/App.csproj"
  qualified := "My: App.List+Node"
  method := some ": get Item"

theorem sound_indexer : indexer.Sound where
  spelled := by decide
  json := rfl
  keeps := rfl
  runs := rfl
  project_ne := by decide
  project := by decide
  qualified_ne := by decide
  qualified := by decide
  qualified_trimmed := by decide
  noColons := by decide
  noColon := by decide
  method := by
    intro m hm
    obtain rfl : ": get Item" = m := Option.some.inj hm
    decide

theorem parseOverrides_indexer : Settings.parseOverrides indexer.options.overrides =
    .ok [("use_pgo", .bool true), ("arch", .text " x64")] := by
  have hflag : Settings.parseOverride "use_pgo=true" = .ok ("use_pgo", .bool true) := by
    have hcut : Text.cutAt ['='] "use_pgo=true".toList = some ("use_pgo".toList, "true".toList) := by
      decide
    have hkey : String.ofList (Text.trim "use_pgo".toList) = "use_pgo" := by decide
    have hfield : (Field.ofName? "use_pgo").any Field.isText = false := by decide
    have hblank : Text.allBlank "true".toList = false := by decide
    have hread : Yaml.read "true".toList = .ok (.bool true) := by
      have htokens : Yaml.tokens "true".toList = .ok [.scalar "true" true] := rfl
      have hnode : Yaml.Node.ofTokens? [.scalar "true" true] =
          .ok (some (Yaml.leafNode (.bool true))) := rfl
      simp only [Yaml.read, htokens, bind, Except.bind, hnode, Yaml.value_leafNode,
        Leaf.toValue]
    simp only [Settings.parseOverride, hcut, hkey, Settings.overrideValue, hblank, hfield, hread]
    rfl
  have htext : Settings.parseOverride "arch= x64" = .ok ("arch", .text " x64") := rfl
  have hitems : indexer.options.overrides = ["use_pgo=true", "arch= x64"] := rfl
  rw [hitems, Settings.parseOverrides, List.mapM_cons, hflag, List.mapM_cons, htext]
  rfl

theorem frontEnds_agree_indexer :
    let c : Service.Config :=
      { environment := { defaultSettings := ⟨.root, ["s"]⟩ }
        host := {}
        tools := fun _ _ t => { files := t, outcome := .ok {} } }
    let clock : Clock := ⟨.zero false, .zero false⟩
    let b : Bench := { files := Tree.empty, here := [], temporary := ⟨.root, ["tmp"]⟩ }
    let changes : Table Value := [("use_pgo", .bool true), ("arch", .text " x64")]
    let changed : Settings := { pgo := true, tieredJit := true, arch := some " x64" }
    indexer.Sound ∧ indexer.Posts changes (indexer.request changes) ∧
      Agree
        ((CommandLine.run c.tools c.host c.environment clock indexer.argv).run.run
          (b.withToken (some {})))
        ((Service.answer c clock (indexer.request changes)).run.run b)
        (((indexer.order changed).run c.tools c.host none clock).run b).1 := by
  intro c clock b changes changed
  have hpath : indexer.settingsPath = none := rfl
  have hfile : (Settings.loadFile ⟨.root, ["s"]⟩).run.run b = (.ok {}, b) := rfl
  have hload : (Settings.load c.environment indexer.settingsPath).run.run b = (.ok {}, b) := by
    rw [hpath]
    exact Settings.run_load rfl hfile
  have happly : ({} : Settings).applyAll changes = .ok changed := rfl
  have hposts := posts_request indexer parseOverrides_indexer happly
  refine ⟨sound_indexer, hposts, ?_⟩
  apply frontEnds_agree sound_indexer hposts rfl hload parseOverrides_indexer happly
  · exact fun _ _ _ => rfl
  · rintro t ⟨⟩
  · rintro t ⟨⟩
    rfl

end Query

end JitLens
