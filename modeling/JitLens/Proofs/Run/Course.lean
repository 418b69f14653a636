import JitLens.Proofs.Run.Instrumented
/-!
# The course of a run

A run calls the build program to build the project.  It may call it again for its version, and
then to build the loader.  The instrumented call follows, and after it a flow graph may be drawn.
Whatever the tools do, and wherever a run ends, its calls are a beginning of such a course.
-/

namespace JitLens

open Files JitLens.Action

/-! ## Roles -/

/-- What a call of a run is for. -/
inductive Role where
  | build
  | version
  | loader
  | instrumented
  | picture
  deriving DecidableEq, Repr

namespace Role

/-- What calls there are to see to it that the loader is there. -/
def loading : List (List Role) := [[], [.version], [.version, .loader]]

/-- What calls there are to draw a flow graph. -/
def drawing : List (List Role) := [[], [.picture]]

/-- All ways to go on from one of some courses with one of some others. -/
def andThen (courses rest : List (List Role)) : List (List Role) :=
  courses.flatMap fun c => rest.map fun d => c ++ d

/-- The courses of runs that get through to their end. -/
def courses : List (List Role) :=
  andThen [[.build]] (andThen loading (andThen [[.instrumented]] drawing))

example : courses = [
    [.build, .instrumented], [.build, .instrumented, .picture],
    [.build, .version, .instrumented], [.build, .version, .instrumented, .picture],
    [.build, .version, .loader, .instrumented],
    [.build, .version, .loader, .instrumented, .picture]] := by
  decide

theorem append_mem_andThen {courses rest : List (List Role)} {c d : List Role} (hc : c ∈ courses)
    (hd : d ∈ rest) : c ++ d ∈ andThen courses rest :=
  List.mem_flatMap.2 ⟨c, hc, List.mem_map.2 ⟨d, hd, rfl⟩⟩

theorem nil_andThen (courses : List (List Role)) : andThen [[]] courses = courses := by
  simp [andThen]

theorem andThen_nil (courses : List (List Role)) : andThen courses [[]] = courses := by
  simp [andThen]

theorem nodup_of_mem_courses {c : List Role} (hc : c ∈ courses) : c.Nodup := by
  have hall : ∀ c ∈ courses, c.Nodup := by decide
  exact hall c hc

theorem before_loader {c before later : List Role} (hc : c ∈ courses)
    (hloader : c = before ++ .loader :: later) : before = [.build, .version] := by
  have hall : ∀ c ∈ courses, .loader ∈ c → c.takeWhile (· ≠ .loader) = [.build, .version] := by
    decide
  have hnodup := nodup_of_mem_courses hc
  subst hloader
  have hbefore : ∀ r ∈ before, decide (r ≠ .loader) = true := by
    intro r hr
    rw [decide_eq_true_iff]
    rintro rfl
    exact (List.nodup_append.1 hnodup).2.2 _ hr _ List.mem_cons_self rfl
  have hwhole := hall _ hc (by simp)
  rw [List.takeWhile_append_of_pos hbefore] at hwhole
  simpa using hwhole

end Role

/-! ## What actions add to the calls -/

abbrev Played := List (Role × Invocation)

def SameCalls (b b' : Bench) : Prop :=
  b'.calls = b.calls

theorem offRecord_sameCalls : OffRecord SameCalls where
  refl _ := rfl
  trans hab hbc := hbc.trans hab
  files _ _ := rfl
  drawn _ _ := rfl
  statuses _ _ := rfl
  warnings _ _ := rfl

/-- What an action adds to the calls: calls that fit their roles.  The roles are a beginning of one
of some courses, and a whole one if the action gets through. -/
structure Recorded {α : Type} (P : Role → Invocation → Prop) (courses : List (List Role))
    (x : Action α) (b : Bench) (played : Played) : Prop where
  calls : (x.run.run b).2.calls = b.calls ++ played.map Prod.snd
  fits : ∀ p ∈ played, P p.1 p.2
  begun : ∃ c ∈ courses, played.map Prod.fst <+: c
  whole : ∀ a, (x.run.run b).1 = .ok a → played.map Prod.fst ∈ courses

/-- An action adds a beginning of one of some courses to the calls. -/
def Adds {α : Type} (P : Role → Invocation → Prop) (courses : List (List Role)) (x : Action α)
    (b : Bench) : Prop :=
  ∃ played, Recorded P courses x b played

namespace Adds

variable {α β : Type} {P : Role → Invocation → Prop} {cs ds : List (List Role)} {b b' : Bench}

theorem of_stays {x : Action α} (hx : Stays SameCalls x b) : Adds P [[]] x b :=
  ⟨[], {
    calls := hx.trans (List.append_nil _).symm
    fits := nofun
    begun := ⟨[], List.mem_singleton_self _, List.prefix_refl _⟩
    whole := fun _ _ => List.mem_singleton_self _ }⟩

theorem call (tools : Tools) {role : Role} {i : Invocation} (hi : P role i) :
    Adds P [[role]] (Action.call tools i) b := by
  by_cases hrefuses : b.Refuses
  · obtain ⟨m, hstop⟩ := run_call_of_refuses tools i hrefuses
    refine ⟨[], ?_, nofun, ⟨[role], List.mem_singleton_self _, List.nil_prefix⟩, ?_⟩
    · rw [hstop]
      exact (List.append_nil _).symm
    · intro a hok
      rw [hstop] at hok
      cases hok
  · refine ⟨[(role, i)], ?_, ?_, ⟨[role], List.mem_singleton_self _, List.prefix_refl _⟩, ?_⟩
    · rw [run_call tools i hrefuses]
      rfl
    · intro p hp
      cases List.mem_singleton.1 hp
      exact hi
    · exact fun _ _ => List.mem_singleton_self _

theorem mono {x : Action α} (hx : Adds P cs x b) (hcourses : ∀ c ∈ cs, c ∈ ds) :
    Adds P ds x b := by
  obtain ⟨played, hrecorded⟩ := hx
  obtain ⟨c, hc, hbegun⟩ := hrecorded.begun
  exact ⟨played, {
    calls := hrecorded.calls
    fits := hrecorded.fits
    begun := ⟨c, hcourses c hc, hbegun⟩
    whole := fun a hok => hcourses _ (hrecorded.whole a hok) }⟩

/-- The calls of one action and then those of another one. -/
theorem bind {x : Action α} {f : α → Action β} (hrest : ds ≠ []) (hx : Adds P cs x b)
    (hf : ∀ a b', x.run.run b = (.ok a, b') → Adds P ds (f a) b') :
    Adds P (Role.andThen cs ds) (x >>= f) b := by
  obtain ⟨played, hplayed⟩ := hx
  have hcalls := hplayed.calls
  rcases hrun : x.run.run b with ⟨e | a, b₁⟩
  -- What the first action has begun when it fails could have gone on in any way.
  · have hbind : (x >>= f).run.run b = (.error e, b₁) := run_bind_error hrun
    rw [hrun] at hcalls
    refine ⟨played, by rw [hbind]; exact hcalls, hplayed.fits, ?_, ?_⟩
    · obtain ⟨c, hc, hbegun⟩ := hplayed.begun
      obtain ⟨d, hd⟩ := List.exists_mem_of_ne_nil ds hrest
      exact ⟨c ++ d, Role.append_mem_andThen hc hd, hbegun.trans (List.prefix_append c d)⟩
    · intro a hok
      rw [hbind] at hok
      cases hok
  -- When it gets through it has played a whole course, and the second one follows.
  · have hbind : (x >>= f).run.run b = (f a).run.run b₁ := run_bind_ok hrun
    have hwhole := hplayed.whole a (by rw [hrun])
    rw [hrun] at hcalls
    obtain ⟨more, hmore⟩ := hf a b₁ hrun
    refine ⟨played ++ more, ?_, ?_, ?_, ?_⟩
    · rw [hbind, hmore.calls, hcalls, List.map_append, List.append_assoc]
    · intro p hp
      rcases List.mem_append.1 hp with hearly | hlate
      · exact hplayed.fits p hearly
      · exact hmore.fits p hlate
    · obtain ⟨d, hd, hbegun⟩ := hmore.begun
      refine ⟨played.map Prod.fst ++ d, Role.append_mem_andThen hwhole hd, ?_⟩
      rw [List.map_append]
      exact (List.prefix_append_right_inj _).2 hbegun
    · intro c hok
      rw [hbind] at hok
      rw [List.map_append]
      exact Role.append_mem_andThen hwhole (hmore.whole c hok)

theorem bind_of_stays {x : Action α} {f : α → Action β} (hrest : ds ≠ [])
    (hx : Stays SameCalls x b) (hf : ∀ a b', x.run.run b = (.ok a, b') → Adds P ds (f a) b') :
    Adds P ds (x >>= f) b := by
  rw [← Role.nil_andThen ds]
  exact bind hrest (of_stays hx) hf

theorem bind_stays {x : Action α} {f : α → Action β} (hx : Adds P cs x b)
    (hf : ∀ a b', x.run.run b = (.ok a, b') → Stays SameCalls (f a) b') :
    Adds P cs (x >>= f) b := by
  rw [← Role.andThen_nil cs]
  exact bind (List.cons_ne_nil _ _) hx fun a b' hrun => of_stays (hf a b' hrun)

theorem get_bind {f : Bench → Action β} (hf : Adds P cs (f b) b) : Adds P cs (get >>= f) b := by
  obtain ⟨played, hplayed⟩ := hf
  have hbind : (get >>= f).run.run b = (f b).run.run b := run_bind_ok (run_get b)
  refine ⟨played, ?_, hplayed.fits, hplayed.begun, ?_⟩
  · rw [hbind]
    exact hplayed.calls
  · rw [hbind]
    exact hplayed.whole

/-- A handler that only changes the failure adds no calls. -/
theorem tryCatch {x : Action α} {h : Failure → Action α} (hx : Adds P cs x b)
    (hh : ∀ e, ∃ e', h e = throw e') : Adds P cs (MonadExcept.tryCatch x h) b := by
  obtain ⟨played, hplayed⟩ := hx
  have hcalls := hplayed.calls
  rcases hrun : x.run.run b with ⟨e | a, b₁⟩
  · obtain ⟨e', hthrow⟩ := hh e
    have hcatch : (MonadExcept.tryCatch x h).run.run b = (.error e', b₁) := by
      rw [run_tryCatch_error hrun, hthrow, run_throw]
    rw [hrun] at hcalls
    refine ⟨played, by rw [hcatch]; exact hcalls, hplayed.fits, hplayed.begun, ?_⟩
    intro a hok
    rw [hcatch] at hok
    cases hok
  · have hcatch : (MonadExcept.tryCatch x h).run.run b = (.ok a, b₁) := run_tryCatch_ok hrun
    refine ⟨played, ?_, hplayed.fits, hplayed.begun, ?_⟩
    · rw [hcatch, ← hrun]
      exact hplayed.calls
    · intro c _
      exact hplayed.whole a (by rw [hrun])

end Adds

/-! ## Steps of a run -/

section

variable {P : Role → Invocation → Prop} {tools : Tools} {b b' : Bench}

theorem Loader.isIn_of_begin {dest : Path} (hbegin : (begin dest).run.run b = (.ok none, b')) :
    isIn dest b.files b.here = false := by
  unfold begin at hbegin
  rw [run_bind_ok (run_get b)] at hbegin
  split at hbegin
  · cases hbegin
  split at hbegin
  · cases hbegin
  · next hmissing => exact Bool.eq_false_iff.2 hmissing

theorem Loader.adds_sdkVersion {dotnet : String} (hversion : P .version (versionCall dotnet)) :
    Adds P [[.version]] (sdkVersion tools dotnet) b := by
  unfold sdkVersion
  apply Adds.bind_stays
  · apply Adds.tryCatch (Adds.call tools hversion)
    intro e
    split
    · exact ⟨e, rfl⟩
    · exact ⟨_, rfl⟩
  · intro result b₁ _
    exact Stays.pure offRecord_sameCalls.toQuiet _

theorem Loader.adds_install {dotnet : String} {root dest : Path} {framework version : String}
    (hversion : isIn dest b.files b.here = false → P .version (versionCall dotnet))
    (hloader : isIn dest b.files b.here = false →
      ∀ sdk, P .loader (buildCall dotnet root ⟨version, framework, sdk⟩)) :
    Adds P Role.loading (install tools dotnet root dest framework version) b := by
  have hR := offRecord_sameCalls
  unfold install
  apply Adds.bind_of_stays (by decide) (stays_begin hR.toQuiet _)
  intro origin? b₁ hbegin
  cases origin? with
  | some origin => exact (Adds.of_stays (Stays.pure hR.toQuiet _)).mono (by decide)
  | none =>
      -- The loader is missing: the version is asked for, and the cache may have it then.
      have hmissing := isIn_of_begin hbegin
      have hcourses : ∀ c ∈ Role.andThen [[.version]] [[], [.loader]], c ∈ Role.loading := by
        decide
      refine Adds.mono ?_ hcourses
      apply Adds.bind (by decide) (adds_sdkVersion (hversion hmissing))
      intro sdk b₂ _
      apply Adds.bind_of_stays (by decide) (stays_arrange hR _ _ _)
      intro origin? b₃ _
      cases origin? with
      | some origin => exact (Adds.of_stays (Stays.pure hR.toQuiet _)).mono (by decide)
      | none =>
          refine Adds.mono ?_ (show ∀ c ∈ [[Role.loader]], c ∈ [[], [Role.loader]] by decide)
          apply Adds.bind_stays (Adds.call tools (hloader hmissing sdk))
          intro result b₄ _
          exact stays_collect hR _ _ _ _

theorem FlowGraph.adds_render {name program : String}
    (hpicture : ∀ file picture, P .picture (drawCall program file picture)) :
    Adds P Role.drawing (render tools name program) b := by
  have hR := offRecord_sameCalls
  unfold render
  apply Adds.get_bind
  split
  · exact (Adds.of_stays (Stays.pure hR.toQuiet _)).mono (by decide)
  split
  · exact (Adds.of_stays (Stays.pure hR.toQuiet _)).mono (by decide)
  apply Adds.bind_of_stays (by decide) (stays_keepLast hR _)
  intro _ b₁ _
  apply Adds.bind_of_stays (by decide) (Stays.checkCancelled hR.toQuiet)
  intro _ b₂ _
  apply Adds.bind_of_stays (by decide) (Stays.temporaryFile hR _)
  intro picture b₃ _
  refine Adds.mono ?_ (show ∀ c ∈ [[Role.picture]], c ∈ Role.drawing by decide)
  apply Adds.bind_stays (Adds.call tools (hpicture _ picture))
  intro result b₄ _
  apply Stays.bind hR.toQuiet (Stays.checkCancelled hR.toQuiet)
  intro _ b₅ _
  apply Stays.get_bind
  split
  · apply Stays.bind hR.toQuiet (Stays.change hR _)
    intro _ b₆ _
    exact Stays.pure hR.toQuiet _
  · exact Stays.pure hR.toQuiet _

namespace Execution

variable {host : Host} {prettifier : Option Prettifier} {j : Job}

theorem adds_drawn {s : Settings} {vars : Compiler.Variables}
    (hpicture : s.flowGraph = true →
      ∀ file picture, P .picture (FlowGraph.drawCall (graphProgram s) file picture)) :
    Adds P Role.drawing (drawn tools s vars) b := by
  have hR := offRecord_sameCalls
  unfold drawn
  split
  · next hwants =>
    have hgraph : s.flowGraph = true := (Bool.and_eq_true_iff.1 hwants).1
    apply Adds.bind_stays (FlowGraph.adds_render (hpicture hgraph))
    intro r b₁ _
    split
    · exact Stays.pure hR.toQuiet _
    · exact Stays.throw hR.toQuiet _
  · exact (Adds.of_stays (Stays.pure hR.toQuiet _)).mono (by decide)

theorem adds_finish {vars : Compiler.Variables} {result : ToolResult}
    (hpicture : j.settings.flowGraph = true →
      ∀ file picture, P .picture (FlowGraph.drawCall (graphProgram j.settings) file picture)) :
    Adds P Role.drawing (finish tools prettifier j vars result) b := by
  have hR := offRecord_sameCalls
  unfold finish
  apply Adds.bind_of_stays (by decide) (Stays.checkCancelled hR.toQuiet)
  intro _ b₁ _
  apply Adds.bind_stays (adds_drawn hpicture)
  intro picture b₂ _
  exact Stays.pure hR.toQuiet _

theorem adds_load
    (hversion : needsLoader j.settings = true →
      Loader.isIn j.target.folder b.files b.here = false →
      P .version (Loader.versionCall j.settings.dotnet))
    (hloader : needsLoader j.settings = true →
      Loader.isIn j.target.folder b.files b.here = false →
      ∀ sdk, P .loader (Loader.buildCall j.settings.dotnet (Loader.defaultRoot b.temporary)
        ⟨j.settings.version, j.framework, sdk⟩)) :
    Adds P Role.loading (load tools j) b := by
  have hR := offRecord_sameCalls
  unfold load
  split
  · next hneeds =>
    apply Adds.get_bind
    apply Adds.bind_stays (Loader.adds_install (hversion hneeds) (hloader hneeds))
    intro _ b₁ _
    exact Stays.pure hR.toQuiet _
  · exact (Adds.of_stays (Stays.pure hR.toQuiet _)).mono (by decide)

theorem adds_attempt
    (hversion : needsLoader j.settings = true →
      Loader.isIn j.target.folder b.files b.here = false →
      P .version (Loader.versionCall j.settings.dotnet))
    (hloader : needsLoader j.settings = true →
      Loader.isIn j.target.folder b.files b.here = false →
      ∀ sdk, P .loader (Loader.buildCall j.settings.dotnet (Loader.defaultRoot b.temporary)
        ⟨j.settings.version, j.framework, sdk⟩))
    (hinstrumented : ∀ vars i b', (prepare tools host j).run.run b = (.ok (vars, i), b') →
      P .instrumented i)
    (hpicture : j.settings.flowGraph = true →
      ∀ file picture, P .picture (FlowGraph.drawCall (graphProgram j.settings) file picture)) :
    Adds P (Role.andThen Role.loading (Role.andThen [[.instrumented]] Role.drawing))
      (attempt tools host prettifier j) b := by
  have hR := offRecord_sameCalls
  have hprepare : Adds P Role.loading (prepare tools host j) b := by
    unfold prepare
    apply Adds.bind_stays (adds_load hversion hloader)
    intro _ b₁ _
    apply Stays.bind hR.toQuiet (stays_vars hR _ _)
    intro vars b₂ _
    apply Stays.bind hR.toQuiet (stays_invocation hR.toQuiet _ _ _)
    intro call b₃ _
    exact Stays.pure hR.toQuiet _
  rw [attempt_eq]
  apply Adds.bind (by decide) hprepare
  rintro ⟨vars, i⟩ b₁ hready
  apply Adds.bind (by decide) (Adds.call tools (hinstrumented vars i b₁ hready))
  intro result b₂ _
  exact adds_finish hpicture

end Execution

theorem Build.adds_attempt {host : Host} {o : Order} (hbuild : P .build (invocation host o.job)) :
    Adds P [[.build]] (attempt tools host o.job) b := by
  have hR := offRecord_sameCalls
  have hgate : Stays SameCalls (gate host o.job) b := by
    unfold Stays
    rw [bench_gate]
    rfl
  rw [attempt_eq]
  apply Adds.bind_of_stays (by decide) hgate
  intro g b₁ _
  apply Adds.bind_of_stays (by decide) (Stays.report hR.toQuiet _)
  intro _ b₂ _
  apply Adds.bind_stays (Adds.call tools hbuild)
  intro result b₃ _
  exact stays_finish hR g.compiler result

end

/-! ## Runs -/

namespace Order

/-- The bench that the first step of a run leaves. -/
def built (tools : Tools) (host : Host) (o : Order) (b : Bench) : Bench :=
  ((Build.attempt tools host o.job).run.run b).2

/-- The instrumented call of a run with its variables, if it is reached, and the bench then. -/
def ready (tools : Tools) (host : Host) (o : Order) (b : Bench) :
    Except Failure (Compiler.Variables × Invocation) × Bench :=
  (Execution.prepare tools host o.job).run.run (o.built tools host b)

/-- The loader is needed for a run, and its files are not all there once the project is built. -/
structure LacksLoader (tools : Tools) (host : Host) (o : Order) (b : Bench) : Prop where
  needed : Execution.needsLoader o.settings = true
  missing : Loader.isIn o.job.target.folder (o.built tools host b).files
    (o.built tools host b).here = false

/-- The calls that a role stands for in a run, and when there are any. -/
inductive Fits (tools : Tools) (host : Host) (o : Order) (b : Bench) : Role → Invocation → Prop where
  | build : Fits tools host o b .build (Build.invocation host o.job)
  | version (hlacks : LacksLoader tools host o b) :
    Fits tools host o b .version (Loader.versionCall o.settings.dotnet)
  | loader (hlacks : LacksLoader tools host o b) (sdk : String) :
    Fits tools host o b .loader (Loader.buildCall o.settings.dotnet
      (Loader.defaultRoot b.temporary) ⟨o.settings.version, o.job.framework, sdk⟩)
  | instrumented {vars : Compiler.Variables} {i : Invocation}
      (hready : (o.ready tools host b).1 = .ok (vars, i)) (hderived : Execution.Derived o.job vars)
      (hcarries : Execution.Carries host o.settings (o.ready tools host b).2 vars i) :
    Fits tools host o b .instrumented i
  | picture (hgraph : o.settings.flowGraph = true) (file picture : Path) :
    Fits tools host o b .picture
      (FlowGraph.drawCall (Execution.graphProgram o.settings) file picture)

/-- The calls of a run with their roles. -/
structure Course (tools : Tools) (host : Host) (o : Order) (b : Bench) (played : Played) :
    Prop where
  fits : ∀ p ∈ played, Fits tools host o b p.1 p.2
  begun : ∃ c ∈ Role.courses, played.map Prod.fst <+: c
  /-- Nothing is tried again. -/
  once : (played.map Prod.fst).Nodup
  /-- The loader is built right after the build program has told its version. -/
  afterVersion : ∀ before later, played.map Prod.fst = before ++ .loader :: later →
    before = [.build, .version]
  /-- The build call is made faster, and all others but the instrumented one have no variables. -/
  others : ∀ p ∈ played, p.1 ≠ .instrumented →
    p.2.vars = if p.1 = .build ∧ o.settings.reload = .build then some Build.fasterBuild else none
  /-- Without the ahead-of-time compiler it is up to the user whether the instrumented call has the
  variable that makes the build call faster. -/
  quickLoops : ∀ p ∈ played, p.1 = .instrumented → o.settings.crossgenSelected = false →
    ∀ vars value, p.2.vars = some vars → Table.get? vars Execution.quickLoops = some value →
    Compiler.Variables.UserSets o.settings.customVars Execution.quickLoops value

section

variable {tools : Tools} {host : Host} {prettifier : Option Prettifier} {clock : Clock}
  {o : Order} {b : Bench} {played : Played}

theorem Fits.vars_of_ne {role : Role} {i : Invocation} (hfits : Fits tools host o b role i)
    (hrole : role ≠ .instrumented) :
    i.vars = if role = .build ∧ o.settings.reload = .build then some Build.fasterBuild
      else none := by
  cases hfits with
  | build =>
      have hjob : o.job.settings.reload = o.settings.reload := rfl
      unfold Build.invocation
      rw [hjob]
      cases hreload : o.settings.reload with
      | build => rfl
      | publish => rfl
  | version _ => rfl
  | loader _ sdk => rfl
  | instrumented _ _ _ => exact absurd rfl hrole
  | picture _ file picture => rfl

theorem Fits.userSets {i : Invocation} {vars : Compiler.Variables} {value : String}
    (hfits : Fits tools host o b .instrumented i) (hcrossgen : o.settings.crossgenSelected = false)
    (hvars : i.vars = some vars) (hvalue : Table.get? vars Execution.quickLoops = some value) :
    Compiler.Variables.UserSets o.settings.customVars Execution.quickLoops value := by
  cases hfits with
  | instrumented _ hderived hcarries =>
      rw [hcarries.vars] at hvars
      cases hvars
      exact Execution.userSets_quickLoops hcrossgen hderived hvalue

theorem course_of_fits (hfits : ∀ p ∈ played, Fits tools host o b p.1 p.2)
    (hbegun : ∃ c ∈ Role.courses, played.map Prod.fst <+: c) : Course tools host o b played where
  fits := hfits
  begun := hbegun
  once := by
    obtain ⟨c, hc, hprefix⟩ := hbegun
    exact (Role.nodup_of_mem_courses hc).sublist hprefix.sublist
  afterVersion before later hplayed := by
    obtain ⟨c, hc, rest, rfl⟩ := hbegun
    exact Role.before_loader hc (by rw [hplayed, List.append_assoc, List.cons_append])
  others p hp := (hfits p hp).vars_of_ne
  quickLoops p hp hrole hcrossgen vars value hvars hvalue := by
    have hinstrumented := hfits p hp
    rw [hrole] at hinstrumented
    exact hinstrumented.userSets hcrossgen hvars hvalue

/-- Both steps of a run, one after the other. -/
theorem adds_steps (tools : Tools) (host : Host) (prettifier : Option Prettifier) (o : Order)
    (b : Bench) :
    Adds (Fits tools host o b) Role.courses
      (do
        Build.attempt tools host o.job
        Execution.attempt tools host prettifier o.job) b := by
  apply Adds.bind (by decide) (Build.adds_attempt .build)
  intro _ b₁ hbuild
  have hbuilt : o.built tools host b = b₁ := by
    rw [built, hbuild]
  have hlacks : Execution.needsLoader o.job.settings = true →
      Loader.isIn o.job.target.folder b₁.files b₁.here = false → LacksLoader tools host o b := by
    intro hneeds hmissing
    refine ⟨hneeds, ?_⟩
    rw [hbuilt]
    exact hmissing
  have htemporary : b₁.temporary = b.temporary := by
    have hstays := Build.stays_attempt (alongCalls_temporary tools) host o (b := b)
    unfold Stays at hstays
    rw [hbuild] at hstays
    exact hstays
  apply Execution.adds_attempt
  · intro hneeds hmissing
    exact .version (hlacks hneeds hmissing)
  · intro hneeds hmissing sdk
    rw [htemporary]
    exact .loader (hlacks hneeds hmissing) sdk
  · intro vars i b₂ hprepare
    have hready : o.ready tools host b = (.ok (vars, i), b₂) := by
      rw [ready, hbuilt, hprepare]
    obtain ⟨hderived, hcarries⟩ := Execution.prepare_eq_ok hprepare
    have hbench : (o.ready tools host b).2 = b₂ := by
      rw [hready]
    apply Fits.instrumented (by rw [hready]) hderived
    rw [hbench]
    exact hcarries
  · intro hgraph file picture
    exact .picture hgraph file picture

theorem calls_of_ending {r : Outcome × Bench} (hgeneric : o.symbol.isGeneric = false)
    (hending : Ending tools host prettifier clock o b r) :
    r.2.calls = ((do
        Build.attempt tools host o.job
        Execution.attempt tools host prettifier o.job).run.run b).2.calls := by
  cases hending with
  | refused hrefused =>
      rw [hgeneric] at hrefused
      cases hrefused
  | unbuilt _ hattempt => rw [run_bind_error hattempt]
  | unexecuted _ hbuild hattempt => rw [run_bind_ok hbuild, hattempt]
  | done _ hbuild hattempt => rw [run_bind_ok hbuild, hattempt]

theorem run_course (tools : Tools) (host : Host) (prettifier : Option Prettifier) (clock : Clock)
    (o : Order) (b : Bench) :
    ∃ played, ((run tools host prettifier clock o).run b).2.calls =
        b.calls ++ played.map Prod.snd ∧ Course tools host o b played := by
  cases hgeneric : o.symbol.isGeneric with
  | true =>
      refine ⟨[], ?_, course_of_fits nofun ⟨[.build, .instrumented], by decide, List.nil_prefix⟩⟩
      rw [run_generic hgeneric]
      exact (List.append_nil _).symm
  | false =>
      obtain ⟨played, hrecorded⟩ := adds_steps tools host prettifier o b
      refine ⟨played, ?_, course_of_fits hrecorded.fits hrecorded.begun⟩
      rw [calls_of_ending hgeneric (run_ending tools host prettifier clock o b)]
      exact hrecorded.calls

end

end Order
end JitLens
