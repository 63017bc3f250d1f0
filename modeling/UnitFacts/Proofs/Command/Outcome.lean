import UnitFacts.Command.Run
import UnitFacts.Proofs.Compiler.Messages
import UnitFacts.Proofs.Json.Recognition

/-!
What comes of an extraction. A run of the compiler that prints the tree of a whole unit succeeds, whatever
its exit status and its complaints. All other runs fail, each in one of five ways, and a failed result has no
facts at all and one diagnostic, which says what is missing. The exit status of the command tells the two
apart.
-/

namespace UnitFacts

namespace Json

theorem lookup_eq_none_iff (name : String) (members : List (String × Json)) :
    lookup name members = none ↔ ∀ member ∈ members, member.1 ≠ name := by
  induction members with
  | nil => simp [lookup]
  | cons member rest ih =>
    rw [List.forall_mem_cons, ← ih]
    cases hrest : lookup name rest <;> simp [lookup, hrest]

/-- The member that is found is the last one of its name. -/
theorem lookup_eq_some_iff (name : String) (members : List (String × Json)) (value : Json) :
    lookup name members = some value ↔
      ∃ before after, members = before ++ (name, value) :: after ∧ ∀ member ∈ after, member.1 ≠ name := by
  constructor
  · intro h
    induction members with
    | nil => cases h
    | cons member rest ih =>
      obtain ⟨key, first⟩ := member
      cases hrest : lookup name rest with
      | some later =>
        have hlater : later = value := by simpa [lookup, hrest] using h
        obtain ⟨before, after, rfl, hafter⟩ := ih (hlater ▸ hrest)
        exact ⟨(key, first) :: before, after, rfl, hafter⟩
      | none =>
        obtain ⟨rfl, rfl⟩ : key = name ∧ first = value := by simpa [lookup, hrest] using h
        exact ⟨[], rest, rfl, (lookup_eq_none_iff key rest).mp hrest⟩
  · rintro ⟨before, after, rfl, hafter⟩
    rw [← lookup_eq_none_iff] at hafter
    induction before with
    | nil => simp [lookup, hafter]
    | cons member before ih => rw [List.cons_append, lookup, ih]

end Json

namespace Messages

/-- A line, trimmed at its end, that reports an error: it is no header line, and it is labelled as an error or
a fatal one, at a place in a file or by the compiler itself. -/
structure ReportsError (line : List Char) : Prop where
  not_header : header? line = none
  labelled : ∃ severity, (site? line).or (driver? line) = some severity ∧
    (severity = .error ∨ severity = .fatal)

/-- The first line of a text that reports an error, if there is any. -/
inductive FirstError (text : String) : Option String → Prop
  | found {before after : List (List Char)} {line : List Char} :
      Text.lines text.toList = before ++ line :: after →
      (∀ earlier ∈ before, ¬ ReportsError (Text.trimEnd earlier)) → ReportsError (Text.trimEnd line) →
      FirstError text (some (String.ofList (Text.trimEnd line)))
  | absent : (∀ line ∈ Text.lines text.toList, ¬ ReportsError (Text.trimEnd line)) → FirstError text none

theorem any_diagnosticOf?_iff (line : List Char) :
    ((diagnosticOf? line).any fun d => d.severity.isError) = true ↔ ReportsError (Text.trimEnd line) := by
  have herror : ∀ severity : Severity, severity.isError = true ↔ severity = .error ∨ severity = .fatal := by
    intro severity
    cases severity <;> decide
  unfold diagnosticOf?
  cases hheader : header? (Text.trimEnd line) with
  | some inclusion =>
    refine ⟨nofun, fun h => ?_⟩
    cases hheader.symm.trans h.not_header
  | none =>
    simp only [Option.any_map, Option.any_eq_true, herror]
    exact ⟨fun h => ⟨hheader, h⟩, fun h => h.labelled⟩

theorem message_of_diagnosticOf? {line : List Char} {d : Diagnostic} (h : diagnosticOf? line = some d) :
    d.message = String.ofList (Text.trimEnd line) := by
  unfold diagnosticOf? at h
  split at h
  · cases h
  · obtain ⟨severity, -, rfl⟩ := Option.map_eq_some_iff.mp h
    rfl

theorem firstError?_parse (text : String) :
    (parse text).firstError? =
      ((Text.lines text.toList).find? fun line => (diagnosticOf? line).any fun d => d.severity.isError).map
        fun line => String.ofList (Text.trimEnd line) := by
  rw [firstError?, diagnostics_parse, List.find?_filterMap]
  cases hfound : (Text.lines text.toList).find? fun line => (diagnosticOf? line).any fun d => d.severity.isError with
  | none => rfl
  | some line =>
    have hline := List.find?_some hfound
    obtain ⟨d, hd, -⟩ := (Option.any_eq_true ..).mp hline
    rw [Option.bind_some, hd, Option.map_some, Option.map_some, message_of_diagnosticOf? hd]

theorem firstError_iff (text : String) (error? : Option String) :
    FirstError text error? ↔ (parse text).firstError? = error? := by
  rw [firstError?_parse]
  constructor
  · intro h
    cases h with
    | @found before after line hlines hbefore hline =>
      have hfind : ((Text.lines text.toList).find?
          fun line => (diagnosticOf? line).any fun d => d.severity.isError) = some line := by
        rw [List.find?_eq_some_iff_append]
        refine ⟨(any_diagnosticOf?_iff line).mpr hline, before, after, hlines, fun earlier hearlier => ?_⟩
        simpa [← any_diagnosticOf?_iff] using hbefore earlier hearlier
      rw [hfind, Option.map_some]
    | absent hnone =>
      rw [List.find?_eq_none.mpr fun line hline => mt (any_diagnosticOf?_iff line).mp (hnone line hline)]
      rfl
  · rintro rfl
    cases hfound : (Text.lines text.toList).find?
        fun line => (diagnosticOf? line).any fun d => d.severity.isError with
    | none =>
      rw [List.find?_eq_none] at hfound
      exact .absent fun line hline => mt (any_diagnosticOf?_iff line).mpr (hfound line hline)
    | some line =>
      obtain ⟨hline, before, after, hlines, hbefore⟩ := List.find?_eq_some_iff_append.mp hfound
      refine .found hlines (fun earlier hearlier => ?_) ((any_diagnosticOf?_iff line).mp hline)
      rw [← any_diagnosticOf?_iff]
      simpa using hbefore earlier hearlier

end Messages

namespace Frontend

/-- An object of the class of a whole unit; the last member of a name counts. -/
def IsUnitDocument (dump : Json) : Prop :=
  ∃ before after, dump = .obj (before ++ ("kind", .str "TranslationUnitDecl") :: after) ∧
    ∀ member ∈ after, member.1 ≠ "kind"

/-- The compiler could be run and printed one document, which is that of a unit. -/
def PrintsUnit (run : CompilerRun) : Prop :=
  ∃ status stdout stderr dump, run = .finished status stdout stderr ∧
    (∃ c ∈ stdout.toList, Text.isBlank c = false) ∧ Json.Spells (.element dump) stdout.toList ∧
    IsUnitDocument dump

/-- How a run of the compiler `binary` on `file` fails; `dumpError` words what is wrong with a text that is no
document. -/
inductive FailsWith (dumpError : String → String) (binary file : String) : CompilerRun → Failure → Prop
  | unavailable : FailsWith dumpError binary file .notFound (.unavailable binary)
  | notStarted (reason : String) :
      FailsWith dumpError binary file (.notStarted reason) (.notStarted binary reason)
  | noTree {status stdout stderr : String} {error? : Option String} :
      (∀ c ∈ stdout.toList, Text.isBlank c = true) → Messages.FirstError stderr error? →
      FailsWith dumpError binary file (.finished status stdout stderr) (.noTree file status error?)
  | dumpNotJson {status stdout stderr : String} :
      (∃ c ∈ stdout.toList, Text.isBlank c = false) →
      (∀ dump, ¬ Json.Spells (.element dump) stdout.toList) →
      FailsWith dumpError binary file (.finished status stdout stderr) (.dumpNotJson file (dumpError stdout))
  | dumpNotUnit {status stdout stderr : String} {dump : Json} :
      (∃ c ∈ stdout.toList, Text.isBlank c = false) → Json.Spells (.element dump) stdout.toList →
      ¬ IsUnitDocument dump →
      FailsWith dumpError binary file (.finished status stdout stderr) (.dumpNotUnit file)

/-- An extraction has the facts of a unit or else no facts and one diagnostic. -/
structure AllOrNothing (leeway : Leeway) (settings : Settings) (action : Action) (run : CompilerRun)
    (sources : Sources) (file : String) (args : List String) : Prop where
  success_iff : (extract leeway settings action run sources file args).success = true ↔ PrintsUnit run
  fails_iff : (extract leeway settings action run sources file args).success = false ↔
    ∃ failure, FailsWith leeway.dumpError settings.clang.binary file run failure
  failed : ∀ failure, FailsWith leeway.dumpError settings.clang.binary file run failure →
    extract leeway settings action run sources file args =
      { file := Path.normalise file
        symbols := []
        references := []
        callEdges := []
        includeDeps := []
        success := false
        diagnostics := [failure.message] }
  /-- A run that printed nothing is explained by the first error. -/
  blank : ∀ status stdout stderr error?, run = .finished status stdout stderr →
    (∀ c ∈ stdout.toList, Text.isBlank c = true) → Messages.FirstError stderr error? →
    (extract leeway settings action run sources file args).diagnostics =
      ["Failed to parse translation unit " ++ file ++ ": " ++
        ("clang produced no AST (" ++ status ++ ")" ++
          match error? with
          | some line => ": " ++ line
          | none => "")]

theorem isBlankText_eq_true_iff (text : String) :
    isBlankText text = true ↔ ∀ c ∈ text.toList, Text.isBlank c = true := List.all_eq_true

theorem isBlankText_eq_false_iff (text : String) :
    isBlankText text = false ↔ ∃ c ∈ text.toList, Text.isBlank c = false := by simp [isBlankText]

/-- A document is read into a tree exactly when it is that of a unit. -/
theorem isSome_importTree?_iff (ctx : Dump.Context) (messages : Messages) (dump : Json) :
    (Dump.importTree? ctx messages dump).isSome = true ↔ IsUnitDocument dump := by
  cases dump with
  | obj members =>
    have hcls : (Dump.Attrs.ofJson (.obj members)).cls = Dump.unitClass ↔
        Json.lookup "kind" members = some (.str Dump.unitClass) := by
      have hread : (Dump.Attrs.ofJson (.obj members)).cls =
          ((Json.lookup "kind" members).bind Json.text?).getD "" := rfl
      rw [hread]
      cases Json.lookup "kind" members with
      | none => simp [Dump.unitClass]
      | some value => cases value <;> simp [Json.text?, Dump.unitClass]
    have hunit : IsUnitDocument (.obj members) ↔
        Json.lookup "kind" members = some (.str Dump.unitClass) := by
      rw [Json.lookup_eq_some_iff]
      simp [IsUnitDocument, Dump.unitClass]
    rw [hunit, ← hcls]
    by_cases h : (Dump.Attrs.ofJson (.obj members)).cls = Dump.unitClass <;>
      simp [Dump.importTree?, Dump.Node.ofJson?, Dump.Node.attrs, h]
  | _ => simp [IsUnitDocument, Dump.importTree?, Dump.Node.ofJson?]

section Run

variable (leeway : Leeway) (compiler : CompilerSettings) (sources : Sources) (file : String) (args : List String)

theorem tree_of_printsUnit {run : CompilerRun} (h : PrintsUnit run) :
    ∃ t, tree leeway compiler run sources file args = .ok t := by
  obtain ⟨status, stdout, stderr, dump, rfl, hsome, hspells, hunit⟩ := h
  have hparse := (Json.parse?_eq_some_iff stdout dump).mpr hspells
  obtain ⟨t, ht⟩ := Option.isSome_iff_exists.mp
    ((isSome_importTree?_iff (context leeway.order compiler sources file args) (Messages.parse stderr) dump).mpr hunit)
  refine ⟨t, ?_⟩
  simp [tree, (isBlankText_eq_false_iff stdout).mpr hsome, hparse, importTree, ht]

theorem tree_of_failsWith {run : CompilerRun} {failure : Failure}
    (h : FailsWith leeway.dumpError compiler.binary file run failure) :
    tree leeway compiler run sources file args = .error failure := by
  cases h with
  | unavailable => rfl
  | notStarted reason => rfl
  | @noTree status stdout stderr error? hblank herror =>
    rw [Messages.firstError_iff] at herror
    simp [tree, (isBlankText_eq_true_iff stdout).mpr hblank, herror]
  | @dumpNotJson status stdout stderr hsome hspells =>
    have hparse : Json.parse? stdout = none := by
      rw [Option.eq_none_iff_forall_ne_some]
      exact fun dump => mt (Json.parse?_eq_some_iff stdout dump).mp (hspells dump)
    simp [tree, (isBlankText_eq_false_iff stdout).mpr hsome, hparse]
  | @dumpNotUnit status stdout stderr dump hsome hspells hunit =>
    have hparse := (Json.parse?_eq_some_iff stdout dump).mpr hspells
    have hnone :
        Dump.importTree? (context leeway.order compiler sources file args) (Messages.parse stderr) dump = none := by
      rw [← isSome_importTree?_iff (context leeway.order compiler sources file args) (Messages.parse stderr)] at hunit
      exact Option.not_isSome_iff_eq_none.mp hunit
    have himport : importTree (context leeway.order compiler sources file args) (Messages.parse stderr) dump =
        .error (.dumpNotUnit file) := by
      rw [importTree, hnone]
      rfl
    simp [tree, (isBlankText_eq_false_iff stdout).mpr hsome, hparse, himport]

/-- There is no run that does neither. -/
theorem printsUnit_or_failsWith (binary : String) (run : CompilerRun) :
    PrintsUnit run ∨ ∃ failure, FailsWith leeway.dumpError binary file run failure := by
  cases run with
  | notFound => exact Or.inr ⟨_, .unavailable⟩
  | notStarted reason => exact Or.inr ⟨_, .notStarted reason⟩
  | finished status stdout stderr =>
    cases hblank : isBlankText stdout with
    | true =>
      rw [isBlankText_eq_true_iff] at hblank
      exact Or.inr ⟨_, .noTree hblank ((Messages.firstError_iff stderr _).mpr rfl)⟩
    | false =>
      rw [isBlankText_eq_false_iff] at hblank
      cases hparse : Json.parse? stdout with
      | none =>
        refine Or.inr ⟨_, .dumpNotJson hblank fun dump hspells => ?_⟩
        rw [← Json.parse?_eq_some_iff, hparse] at hspells
        cases hspells
      | some dump =>
        rw [Json.parse?_eq_some_iff] at hparse
        by_cases hunit : IsUnitDocument dump
        · exact Or.inl ⟨status, stdout, stderr, dump, rfl, hblank, hparse, hunit⟩
        · exact Or.inr ⟨_, .dumpNotUnit hblank hparse hunit⟩

end Run

section Extract

variable (leeway : Leeway) (settings : Settings) (action : Action) (sources : Sources) (file : String)
  (args : List String)

theorem extract_of_failsWith {run : CompilerRun} {failure : Failure}
    (h : FailsWith leeway.dumpError settings.clang.binary file run failure) :
    extract leeway settings action run sources file args = .failed (Path.normalise file) failure.message := by
  rw [extract, tree_of_failsWith leeway settings.clang sources file args h]

theorem success_of_printsUnit {run : CompilerRun} (h : PrintsUnit run) :
    (extract leeway settings action run sources file args).success = true := by
  obtain ⟨t, ht⟩ := tree_of_printsUnit leeway settings.clang sources file args h
  rw [extract, ht]
  rfl

theorem allOrNothing (run : CompilerRun) : AllOrNothing leeway settings action run sources file args := by
  have hfailed : ∀ failure, FailsWith leeway.dumpError settings.clang.binary file run failure →
      extract leeway settings action run sources file args = .failed (Path.normalise file) failure.message :=
    fun failure h => extract_of_failsWith leeway settings action sources file args h
  have hsuccess : PrintsUnit run → (extract leeway settings action run sources file args).success = true :=
    success_of_printsUnit leeway settings action sources file args
  have hfalse : (∃ failure, FailsWith leeway.dumpError settings.clang.binary file run failure) →
      (extract leeway settings action run sources file args).success = false := by
    rintro ⟨failure, h⟩
    rw [hfailed failure h]
    rfl
  refine ⟨⟨fun h => ?_, hsuccess⟩, ⟨fun h => ?_, hfalse⟩, hfailed, ?_⟩
  · rcases printsUnit_or_failsWith leeway file settings.clang.binary run with hunit | hfails
    · exact hunit
    · cases h.symm.trans (hfalse hfails)
  · rcases printsUnit_or_failsWith leeway file settings.clang.binary run with hunit | hfails
    · cases h.symm.trans (hsuccess hunit)
    · exact hfails
  · rintro status stdout stderr error? rfl hblank herror
    rw [hfailed _ (.noTree hblank herror)]
    cases error? <;> rfl

end Extract

end Frontend

namespace Command

open CommandLine

variable {σ : Type} (host : Host (StateM σ)) (settings : Settings) (request : ExtractRequest)

/-- The text that a result is put out as. -/
def resultText (result : Extraction) : String :=
  result.toJson.renderLine (.ofPretty (overridden settings request).extraction.pretty)

/-- A result can be put where the request wants it. -/
def CanPutOut (result : Extraction) (s : σ) : Prop :=
  ∀ path, request.output = some path →
    ((host.write path (resultText settings request result)).run s).1 = .ok ()

/-- On a machine in the state `s` the command exits as its result is, and the result is that of the run of the
compiler it asked for. -/
structure ExitsByOutcome (s : σ) : Prop where
  code : ∀ result s', (extraction host (overridden settings request) request).run s = (result, s') →
    CanPutOut host settings request result s' →
    ((runExtract host settings request).run s).1.code = if result.success then 0 else 1
  result : request.snapshot = false → ∀ run s₁ sources s₂ leeway s₃,
    (compile host (overridden settings request) request.file request.compileArgs).run s = (run, s₁) →
    host.sources.run s₁ = (sources, s₂) → host.leeway.run s₂ = (leeway, s₃) →
    (extraction host (overridden settings request) request).run s =
      (Frontend.extract leeway (overridden settings request)
        (overridden settings request).extraction.defaultAction run sources request.file request.compileArgs, s₃)

/-- A step of a machine, and then what is done with its result. -/
theorem run_bind_of_eq {α β : Type} {step : StateM σ α} {s s' : σ} {a : α} (h : step.run s = (a, s'))
    (next : α → StateM σ β) : (step >>= next).run s = (next a).run s' := by
  rw [StateT.run_bind, h]
  rfl

theorem exitsByOutcome (s : σ) : ExitsByOutcome host settings request s where
  code result s' hresult hput := by
    have hcode : (if result.success then ExitStatus.success else .noTree).code = if result.success then 0 else 1 := by
      cases result.success <;> rfl
    rw [runExtract, run_bind_of_eq hresult]
    cases houtput : request.output with
    | none => exact hcode
    | some path =>
      have hwritten : (host.write path (resultText settings request result)).run s' =
          (.ok (), ((host.write path (resultText settings request result)).run s').2) :=
        Prod.ext (hput path houtput) rfl
      rw [resultText] at hwritten
      dsimp only
      rw [run_bind_of_eq hwritten]
      exact hcode
  result hsnapshot run s₁ sources s₂ leeway s₃ hrun hsources hleeway := by
    rw [extraction, if_neg (by simp [hsnapshot])]
    rw [run_bind_of_eq hrun, run_bind_of_eq hsources, run_bind_of_eq hleeway]
    rfl

/-- Whatever the compiler does, and however it goes about it, an extraction gives the facts of a unit or one
diagnostic and nothing else, and the exit status of the command tells which. -/
theorem extract_allOrNothing (s : σ) (leeway : Leeway) (action : Action) (run : CompilerRun) (sources : Sources)
    (file : String) (args : List String) :
    Frontend.AllOrNothing leeway settings action run sources file args ∧ ExitsByOutcome host settings request s :=
  ⟨Frontend.allOrNothing leeway settings action sources file args run, exitsByOutcome host settings request s⟩

example :
    (Frontend.extract .plain {} .everything
      (.finished "signal: 6 (SIGABRT)" " \n"
        ". a.h\na.cpp:1:2: warning: w\na.cpp:3:4: fatal error: f\na.cpp:5:6: error: e\n")
      {} "a.cpp" []) =
      { file := "a.cpp"
        success := false
        diagnostics := ["Failed to parse translation unit a.cpp: clang produced no AST (signal: 6 (SIGABRT)): " ++
          "a.cpp:3:4: fatal error: f"] } := by
  decide +kernel

end Command

end UnitFacts
