import JitLens.Compiler.Crossgen
import JitLens.Proofs.Text.Words
import Mathlib.Data.List.Forall2
/-!
# Options of the ahead-of-time compiler

Every variable of the runtime becomes one option, whose name is the lower-case name of the variable
without what it starts with.  The replacements that make it are independent of each other, because
what they look for starts with a lead and a name has a lead at most once, at its start.
-/

namespace JitLens

/-! ## Replacing -/

namespace Text

variable {old new cs : List Char}

theorem startsWith_iff_isPrefix {pre : List Char} : startsWith pre cs = true ↔ pre <+: cs := by
  rw [startsWith_iff]
  exact exists_congr fun r => eq_comm

/-- A text without what is looked for stays as it is. -/
theorem replaceAll_of_not_infix (hold : ¬ old <:+: cs) : replaceAll old new cs = cs := by
  unfold replaceAll
  induction cs with
  | nil => rfl
  | cons c cs ih =>
      rw [List.infix_cons_iff, not_or] at hold
      rw [replaceFrom, if_neg (by rw [startsWith_iff_isPrefix]; exact hold.1), ih hold.2]

theorem replaceFrom_length_append (pre : List Char) :
    replaceFrom old new pre.length (pre ++ cs) = replaceFrom old new 0 cs := by
  induction pre with
  | nil => rfl
  | cons p pre ih => rw [List.length_cons, List.cons_append, replaceFrom, ih]

/-- What is looked for is replaced where a text starts with it, and the search goes on behind it. -/
theorem replaceAll_append (hold : old ≠ []) :
    replaceAll old new (old ++ cs) = new ++ replaceAll old new cs := by
  obtain ⟨o, os, rfl⟩ := List.exists_cons_of_ne_nil hold
  have hstarts : startsWith (o :: os) (o :: (os ++ cs)) = true :=
    startsWith_iff_isPrefix.2 (List.prefix_append _ cs)
  rw [replaceAll, List.cons_append, replaceFrom, if_pos hstarts]
  exact congrArg (new ++ ·) (replaceFrom_length_append os)

end Text

namespace Compiler.Crossgen

open Files

/-! ## Names -/

/-- Whether a variable is one of the runtime, whatever the case of its name. -/
def isLed (entry : String × String) : Bool :=
  leads.any fun lead => Text.startsWith lead (Text.lower entry.1.toList)

/-- A name in lower case that has a lead at its start only, and so at most once. -/
def LedOnce (lower : List Char) : Prop :=
  ∀ lead ∈ leads, ∀ before behind, lower = before ++ lead ++ behind → before = []

/-- A text without a lead. -/
def Leadless (cs : List Char) : Prop :=
  ∀ lead ∈ leads, ¬ lead <:+: cs

/-- What the compiler calls a variable of the runtime, by its name in lower case. -/
inductive Renamed : List Char → List Char → Prop where
  | dump (rest : List Char) :
    Renamed ("dotnet_jitdump".toList ++ rest) ("ngendump".toList ++ rest)
  | disasm (rest : List Char) :
    Renamed ("dotnet_jitdisasm".toList ++ rest) ("ngendisasm".toList ++ rest)
  | dotnet {rest : List Char} (hdump : ¬ "jitdump".toList <+: rest)
      (hdisasm : ¬ "jitdisasm".toList <+: rest) :
    Renamed ("dotnet_".toList ++ rest) rest
  | complus (rest : List Char) : Renamed ("complus_".toList ++ rest) rest

/-- The option that a variable of the runtime becomes. -/
def IsOption (entry : String × String) (option : String) : Prop :=
  ∃ name, Renamed (Text.lower entry.1.toList) name ∧
    option = "--codegenopt:" ++ String.ofList name ++ "=" ++ entry.2

theorem isLed_iff {entry : String × String} :
    isLed entry = true ↔ ∃ lead ∈ leads, lead <+: Text.lower entry.1.toList := by
  simp only [isLed, List.any_eq_true, Text.startsWith_iff_isPrefix]

theorem ne_nil_of_mem_leads {lead : List Char} (hlead : lead ∈ leads) : lead ≠ [] := by
  rintro rfl
  exact absurd hlead (by decide)

/-- A lead behind the start of a name is one in the rest of it. -/
theorem ledOnce_iff {lower : List Char} : LedOnce lower ↔ Leadless lower.tail := by
  constructor
  · rintro h lead hlead ⟨before, behind, htail⟩
    cases lower with
    | nil =>
        rw [List.tail_nil, List.append_eq_nil_iff, List.append_eq_nil_iff] at htail
        exact ne_nil_of_mem_leads hlead htail.1.2
    | cons c cs =>
        rw [List.tail_cons] at htail
        subst htail
        cases h lead hlead (c :: before) behind rfl
  · rintro h lead hlead (_ | ⟨c, before⟩) behind rfl
    · rfl
    · exact absurd ⟨before, behind, rfl⟩ (h lead hlead)

theorem leadless_iff {cs : List Char} :
    Leadless cs ↔ ∀ lead ∈ leads, Text.contains lead cs = false := by
  simp only [Leadless, ← Text.contains_iff, Bool.not_eq_true]

instance (cs : List Char) : Decidable (Leadless cs) :=
  decidable_of_iff _ leadless_iff.symm

instance (lower : List Char) : Decidable (LedOnce lower) :=
  decidable_of_iff _ ledOnce_iff.symm

/-- What is looked for in names starts with a lead. -/
theorem exists_lead_of_mem_renamings :
    ∀ r ∈ renamings, ∃ lead ∈ leads, lead <+: r.1 := by
  decide

/-- Behind its lead there is no other one in a name. -/
theorem LedOnce.leadless {lead rest : List Char} (h : LedOnce (lead ++ rest))
    (hlead : lead ≠ []) : Leadless rest := by
  rintro lead' hlead' ⟨before, behind, rfl⟩
  have hnil := h lead' hlead' (lead ++ before) behind (by simp)
  exact hlead (List.append_eq_nil_iff.1 hnil).1

/-- What starts with a lead is in a name only as the start of it. -/
theorem LedOnce.not_infix {cs old lead : List Char} (h : LedOnce cs) (hlead : lead ∈ leads)
    (hold : lead <+: old) (hstart : ¬ old <+: cs) : ¬ old <:+: cs := by
  rintro ⟨before, behind, rfl⟩
  obtain ⟨more, rfl⟩ := hold
  have hnil : before = [] := h lead hlead before (more ++ behind) (by simp)
  subst hnil
  exact hstart (List.prefix_append _ behind)

theorem Leadless.not_infix {cs old lead : List Char} (h : Leadless cs) (hlead : lead ∈ leads)
    (hold : lead <+: old) : ¬ old <:+: cs :=
  fun hinfix => h lead hlead (hold.isInfix.trans hinfix)

/-- Text that ends in no part of a lead brings no lead into what stands behind it. -/
theorem leadless_ngendump {rest : List Char} (h : Leadless rest) :
    Leadless ("ngendump".toList ++ rest) := by
  intro lead hlead
  have hrest := h lead hlead
  simp only [leads, List.mem_cons, List.not_mem_nil, or_false] at hlead
  rcases hlead with rfl | rfl <;>
    simpa [List.infix_cons_iff, List.cons_prefix_cons] using hrest

theorem leadless_ngendisasm {rest : List Char} (h : Leadless rest) :
    Leadless ("ngendisasm".toList ++ rest) := by
  intro lead hlead
  have hrest := h lead hlead
  simp only [leads, List.mem_cons, List.not_mem_nil, or_false] at hlead
  rcases hlead with rfl | rfl <;>
    simpa [List.infix_cons_iff, List.cons_prefix_cons] using hrest

/-! ## One replacement after the other -/

/-- The replacements given, one after the other. -/
def renameBy (rs : List (List Char × List Char)) (cs : List Char) : List Char :=
  rs.foldl (fun cs (old, new) => Text.replaceAll old new cs) cs

theorem renameBy_of_not_infix {rs : List (List Char × List Char)} {cs : List Char}
    (hrs : ∀ r ∈ rs, ¬ r.1 <:+: cs) : renameBy rs cs = cs := by
  induction rs with
  | nil => rfl
  | cons r rs ih =>
      have hhead : Text.replaceAll r.1 r.2 cs = cs :=
        Text.replaceAll_of_not_infix (hrs r List.mem_cons_self)
      have hcons : renameBy (r :: rs) cs = renameBy rs (Text.replaceAll r.1 r.2 cs) := rfl
      rw [hcons, hhead, ih fun r' hr' => hrs r' (List.mem_cons_of_mem _ hr')]

/-- The replacements before the one that fits find nothing, and what it leaves gives those behind
it nothing to find. -/
theorem optionName_of_split (before : List (List Char × List Char)) (old new : List Char)
    {after : List (List Char × List Char)} {rest : List Char}
    (hsplit : renamings = before ++ (old, new) :: after)
    (honce : LedOnce (old ++ rest)) (hbefore : ∀ r ∈ before, ¬ r.1 <+: old ++ rest)
    (hnew : Leadless (new ++ rest)) : optionName (old ++ rest) = new ++ rest := by
  have hmem : (old, new) ∈ renamings := by
    rw [hsplit]
    exact List.mem_append_right _ List.mem_cons_self
  obtain ⟨lead, hlead, hold⟩ := exists_lead_of_mem_renamings _ hmem
  have hne : old ≠ [] := fun hnil =>
    ne_nil_of_mem_leads hlead (List.prefix_nil.1 (hnil ▸ hold))
  have hrest : Leadless rest := honce.leadless hne
  have hfirst : renameBy before (old ++ rest) = old ++ rest := by
    apply renameBy_of_not_infix
    intro r hr
    obtain ⟨lead', hlead', hr'⟩ :=
      exists_lead_of_mem_renamings r (hsplit ▸ List.mem_append_left _ hr)
    exact honce.not_infix hlead' hr' (hbefore r hr)
  have hfits : Text.replaceAll old new (old ++ rest) = new ++ rest := by
    rw [Text.replaceAll_append hne, Text.replaceAll_of_not_infix (hrest.not_infix hlead hold)]
  have hlast : renameBy after (new ++ rest) = new ++ rest := by
    apply renameBy_of_not_infix
    intro r hr
    obtain ⟨lead', hlead', hr'⟩ := exists_lead_of_mem_renamings r
      (hsplit ▸ List.mem_append_right _ (List.mem_cons_of_mem _ hr))
    exact hnew.not_infix hlead' hr'
  have hfold : optionName (old ++ rest) =
      renameBy after (Text.replaceAll old new (renameBy before (old ++ rest))) := by
    rw [optionName, hsplit, List.foldl_append]
    rfl
  rw [hfold, hfirst, hfits, hlast]

/-- What the compiler calls a variable whose name has its lead once. -/
theorem renamed_optionName {lower : List Char} (honce : LedOnce lower)
    (hled : ∃ lead ∈ leads, lead <+: lower) : Renamed lower (optionName lower) := by
  by_cases hdump : "dotnet_jitdump".toList <+: lower
  · obtain ⟨rest, rfl⟩ := hdump
    rw [optionName_of_split [] "dotnet_jitdump".toList "ngendump".toList rfl honce (by simp)
      (leadless_ngendump (honce.leadless (by decide)))]
    exact .dump rest
  by_cases hdisasm : "dotnet_jitdisasm".toList <+: lower
  · obtain ⟨rest, rfl⟩ := hdisasm
    rw [optionName_of_split (renamings.take 1) "dotnet_jitdisasm".toList "ngendisasm".toList rfl
      honce (List.forall_mem_singleton.2 hdump) (leadless_ngendisasm (honce.leadless (by decide)))]
    exact .disasm rest
  obtain ⟨lead, hlead, rest, rfl⟩ := hled
  have hrest : Leadless rest := honce.leadless (ne_nil_of_mem_leads hlead)
  simp only [leads, List.mem_cons, List.not_mem_nil, or_false] at hlead
  rcases hlead with rfl | rfl
  · rw [optionName_of_split (renamings.take 2) "dotnet_".toList [] rfl honce
      (List.forall_mem_cons.2 ⟨hdump, List.forall_mem_singleton.2 hdisasm⟩) hrest]
    exact .dotnet (by simpa [List.cons_prefix_cons] using hdump)
      (by simpa [List.cons_prefix_cons] using hdisasm)
  · have hother : ¬ "dotnet_".toList <+: "complus_".toList ++ rest := by
      simp [List.cons_prefix_cons]
    rw [optionName_of_split (renamings.take 3) "complus_".toList [] rfl honce
      (List.forall_mem_cons.2 ⟨hdump, List.forall_mem_cons.2
        ⟨hdisasm, List.forall_mem_singleton.2 hother⟩⟩) hrest]
    exact .complus rest

theorem exists_option {entry : String × String} (honce : LedOnce (Text.lower entry.1.toList))
    (hled : isLed entry = true) :
    ∃ option, option? entry.1 entry.2 = some option ∧ IsOption entry option :=
  ⟨_, if_pos hled, _, renamed_optionName honce (isLed_iff.1 hled), rfl⟩

theorem option?_eq_none {entry : String × String} (hled : ¬ isLed entry = true) :
    option? entry.1 entry.2 = none :=
  if_neg hled

theorem options_cons_of_some {entry : String × String} {vars : Variables} {option : String}
    (hoption : option? entry.1 entry.2 = some option) :
    options (entry :: vars) = option :: options vars :=
  List.filterMap_cons_some hoption

theorem options_cons_of_none {entry : String × String} {vars : Variables}
    (hoption : option? entry.1 entry.2 = none) : options (entry :: vars) = options vars :=
  List.filterMap_cons_none hoption

/-- The variables of the runtime become one option each, in their order, and the others none. -/
theorem forall₂_options {vars : Variables}
    (honce : ∀ entry ∈ vars, LedOnce (Text.lower entry.1.toList)) :
    List.Forall₂ IsOption (vars.filter isLed) (options vars) := by
  induction vars with
  | nil => exact .nil
  | cons entry vars ih =>
      have hrest := ih fun e he => honce e (List.mem_cons_of_mem _ he)
      by_cases hled : isLed entry = true
      · obtain ⟨option, hoption, hisOption⟩ := exists_option (honce entry List.mem_cons_self) hled
        rw [List.filter_cons_of_pos hled, options_cons_of_some hoption]
        exact .cons hisOption hrest
      · rw [List.filter_cons_of_neg hled, options_cons_of_none (option?_eq_none hled)]
        exact hrest

/-! ## Calls -/

/-- What a call is made with, where the compiler and the library pack are found. -/
structure Finds (t : Tree) (here : Location) (host : Host) (s : Settings) (jit pack : Path) :
    Prop where
  compiler : (findCompiler t here host s none).path? = some jit
  pack : ∃ found, findPack t here host s none = .ok found ∧ found.path? = some pack

variable {t : Tree} {here : Location} {host : Host} {s : Settings} {assembly : String}
  {folder : Path} {vars : Variables} {c : CrossgenCall}

/-- A call is made of what is found and of what the settings, the project and the variables of the
run say. -/
theorem call_eq_ok_iff :
    call t here host s assembly folder vars = .ok (.ok c) ↔
      ∃ jit pack extra, Finds t here host s jit pack ∧ userArgs s = .ok extra ∧ c = {
        program := crossgenProgram jit host.os
        args := ["--out", "aot"] ++ options vars ++ extra ++ [assembly ++ ".dll"] ++
          references s folder jit pack
        vars := Table.putAll vars hostVariables } := by
  constructor
  · intro hcall
    unfold call at hcall
    dsimp only at hcall
    split at hcall
    · cases hcall
    · next jit hjit =>
      cases hpack : findPack t here host s none with
      | error e =>
          rw [hpack] at hcall
          cases hcall
      | ok found =>
          rw [hpack] at hcall
          simp only [Except.mapError, bind, Except.bind] at hcall
          split at hcall
          · cases hcall
          · next pack hpath =>
            cases hextra : userArgs s with
            | error e =>
                rw [hextra] at hcall
                cases hcall
            | ok extra =>
                rw [hextra] at hcall
                simp only [Except.ok.injEq] at hcall
                exact ⟨jit, pack, extra, ⟨hjit, found, hpack, hpath⟩, rfl, hcall.symm⟩
  · rintro ⟨jit, pack, extra, ⟨hjit, found, hpack, hpath⟩, hextra, rfl⟩
    simp only [call, hjit, hpack, Except.mapError, bind, Except.bind, hpath, hextra]

/-- What is written on a command line is what the compiler is given. -/
theorem userArgs_commandLine (words : List String) :
    userArgs { s with crossgenArgs := some (Text.commandLine words) } = .ok words := by
  unfold userArgs
  dsimp only
  split
  · next hblank =>
    rw [Text.eq_nil_of_blank_commandLine hblank]
  · exact Text.readWords_commandLine words

/-- Words come back from a command line as they were, and a call whose extra arguments were written
on one has these words between its options and the compiled project. -/
theorem call_commandLine :
    (∀ (program : String) (args : List String),
      Text.readWords (Text.commandLine (program :: args)).toList =
        .ok ((program :: args).map String.toList)) ∧
    ∀ (t : Tree) (here : Location) (host : Host) (s : Settings) (assembly : String) (folder : Path)
      (vars : Variables) (words : List String) (c : CrossgenCall),
      let s' := { s with crossgenArgs := some (Text.commandLine words) }
      call t here host s' assembly folder vars = .ok (.ok c) ↔
        ∃ jit pack, Finds t here host s' jit pack ∧ c = {
          program := crossgenProgram jit host.os
          args := ["--out", "aot"] ++ options vars ++ words ++ [assembly ++ ".dll"] ++
            references s folder jit pack
          vars := Table.putAll vars hostVariables } := by
  constructor
  · intro program args
    rw [Text.toList_commandLine, Text.readWords_writeWords]
  · intro t here host s assembly folder vars words c s'
    rw [call_eq_ok_iff]
    constructor
    · rintro ⟨jit, pack, extra, hfinds, hextra, rfl⟩
      rw [userArgs_commandLine, Except.ok.injEq] at hextra
      subst hextra
      exact ⟨jit, pack, hfinds, rfl⟩
    · rintro ⟨jit, pack, hfinds, rfl⟩
      exact ⟨jit, pack, words, hfinds, userArgs_commandLine words, rfl⟩

/-- The variables that are one thing in the options and another for the compiler itself, with what
the options call them. -/
def hostOptionNames : List (String × String) := [
  ("DOTNET_TieredPGO", "tieredpgo"), ("DOTNET_ReadyToRun", "readytorun"),
  ("DOTNET_TC_QuickJitForLoops", "tc_quickjitforloops"),
  ("DOTNET_TieredCompilation", "tieredcompilation")]

theorem option?_of_mem_hostOptionNames {key name : String}
    (hmem : (key, name) ∈ hostOptionNames) (value : String) :
    option? key value = some ("--codegenopt:" ++ name ++ "=" ++ value) := by
  have hall : ∀ e ∈ hostOptionNames, isLed (e.1, "") = true ∧
      String.ofList (optionName (Text.lower e.1.toList)) = e.2 := by
    decide
  have hled : isLed (key, "") = true := (hall _ hmem).1
  have hname : String.ofList (optionName (Text.lower key.toList)) = name := (hall _ hmem).2
  rw [← hname]
  exact if_pos hled

theorem mem_options_iff {option : String} :
    option ∈ options vars ↔ ∃ entry ∈ vars, option? entry.1 entry.2 = some option :=
  List.mem_filterMap

/-- How the variables of a run come into a call. -/
structure Carries (s : Settings) (assembly : String) (folder : Path) (vars : Variables)
    (c : CrossgenCall) : Prop where
  args : ∃ extra jit pack, userArgs s = .ok extra ∧
    c.args = ["--out", "aot"] ++ options vars ++ extra ++ [assembly ++ ".dll"] ++
      references s folder jit pack
  user : ∀ key name value, (key, name) ∈ hostOptionNames → (key, value) ∈ vars →
    "--codegenopt:" ++ name ++ "=" ++ value ∈ c.args
  host : ∀ key value, (key, value) ∈ hostVariables → Table.get? c.vars key = some value
  others : ∀ key ∉ hostVariables.map Prod.fst, Table.get? c.vars key = Table.get? vars key

theorem carries_of_call (hcall : call t here host s assembly folder vars = .ok (.ok c)) :
    Carries s assembly folder vars c := by
  obtain ⟨jit, pack, extra, -, hextra, rfl⟩ := call_eq_ok_iff.1 hcall
  have hnodup : (hostVariables.map Prod.fst).Nodup := by decide
  refine ⟨⟨extra, jit, pack, hextra, rfl⟩, ?_, ?_, ?_⟩
  · intro key name value hname hmem
    have hoption : "--codegenopt:" ++ name ++ "=" ++ value ∈ options vars :=
      mem_options_iff.2 ⟨_, hmem, option?_of_mem_hostOptionNames hname value⟩
    simp [hoption]
  · intro key value hmem
    exact (Table.get?_putAll_of_nodup hnodup).2 (.inl hmem)
  · intro key hkey
    rw [Table.get?_putAll, Table.get?_eq_none_iff.2 (by simpa using hkey), Option.none_or]

/-- The variables of the runtime are options of a call, in their order and with their own values;
the compiler itself runs with the variables given, but for those that make it faster. -/
theorem call_translates (vars : Variables) :
    ((∀ entry ∈ vars, LedOnce (Text.lower entry.1.toList)) →
      List.Forall₂ IsOption (vars.filter isLed) (options vars)) ∧
    ∀ t here host s assembly folder c, call t here host s assembly folder vars = .ok (.ok c) →
      Carries s assembly folder vars c :=
  ⟨forall₂_options, fun _ _ _ _ _ _ _ hcall => carries_of_call hcall⟩

/-- A checkout with a compiler and a library pack, and variables with either lead and with none. -/
theorem call_translates_checkout :
    let jits : Entry := .dir [("linux.x64.Checked", .dir [])]
    let packs : Entry := .dir [("net9.0-linux-Release-x64", .dir [])]
    let t : Tree := ⟨[("r", .dir [("artifacts", .dir [("bin",
      .dir [("coreclr", jits), ("runtime", packs)])])])]⟩
    let s : Settings := { runtimeRoot := "r" }
    let vars : Variables := [("DOTNET_JitDisasm", "Main"), ("DOTNET_TieredPGO", "0=1"),
      ("CORE_LIBRARIES", "p"), ("COMPlus_JitStdOutFile", "")]
    (∀ entry ∈ vars, LedOnce (Text.lower entry.1.toList)) ∧
      List.Forall₂ IsOption (vars.filter isLed) (options vars) ∧
      ∃ c, call t [] {} s "app" (Path.ofString "out") vars = .ok (.ok c) ∧
        Carries s "app" (Path.ofString "out") vars c := by
  intro jits packs t s vars
  have honce : ∀ entry ∈ vars, LedOnce (Text.lower entry.1.toList) := by decide
  have hfinds : Finds t [] {} s ((compilers "r").child "linux.x64.Checked")
      ((Compiler.packs "r").child "net9.0-linux-Release-x64") :=
    ⟨by decide, { path := some ((Compiler.packs "r").child "net9.0-linux-Release-x64") },
      by decide +kernel, rfl⟩
  obtain ⟨c, hcall⟩ : ∃ c, call t [] {} s "app" (Path.ofString "out") vars = .ok (.ok c) :=
    ⟨_, call_eq_ok_iff.2 ⟨_, _, [], hfinds, rfl, rfl⟩⟩
  obtain ⟨hoptions, hcarries⟩ := call_translates vars
  exact ⟨honce, hoptions honce, c, hcall, hcarries t [] {} s "app" (Path.ofString "out") c hcall⟩

end Compiler.Crossgen
end JitLens
