import CodeAtlas.Command.Run
import CodeAtlas.Proofs.Settings.LeftOut

/-!
# When a command fails

A run goes through four steps that may go wrong: the settings are read, the graph is read, excluded files are
left out, and the entity asked for is looked up.  Which of these make a command fail is said here without
going through them (`Command.Faulty`): the graph is no text, or the text is no graph, or whatever answers to
the query is excluded.  Settings have a share in the last one alone, and only through patterns that can be read
(`FileContent.Excludes`).

* `Graph.find?_eq_none_iff` — a look-up fails only if nothing answers to the query;
* `Settings.excludes_ofContent` — what is excluded by the settings in a file, usable or not;
* `Command.reportOn_eq_error_iff`, `Command.failure?_runOn` — what a command fails for.
-/

namespace CodeAtlas

/-! ### Faults -/

/-- The query is the id or the name of the entity. -/
def Entity.AnswersTo (e : Entity) (query : String) : Prop := e.id = query ∨ e.name = query

/-- The file holds settings, and one of their patterns can be read and matches the file of the entity. -/
def FileContent.Excludes (content : FileContent) (e : Entity) : Prop :=
  ∃ text settings, content = .text text ∧ Settings.ofText? text = some settings ∧
    ∃ pattern ∈ settings.excludeTexts, ∃ glob path, Glob.ofText? pattern = some glob ∧
      e.file = some path ∧ glob.accepts path = true

namespace Command

/-- The entity asked for.  A filter asks for none. -/
def query? : Command → Option String
  | .tree _ entity .. => some entity
  | .refs _ entity .. => some entity
  | .filter .. => none
  | .stats _ entity .. => some entity

/-- Why a command cannot be carried out, given the contents of the file with settings and of the file with the
graph. -/
inductive Faulty (settings graph : FileContent) (c : Command) : Failure → Prop where
  /-- The graph is missing, or it is no text. -/
  | unreadable : (∀ text, graph ≠ .text text) → Faulty settings graph c (.unreadableGraph c.graphPath)
  /-- The text is no graph. -/
  | invalid {text : String} : graph = .text text → (∀ g, Json.decode Graph.reader text ≠ .ok g) →
      Faulty settings graph c (.invalidGraph c.graphPath)
  /-- Whatever answers to the query is excluded. -/
  | noEntity {text query : String} {g : Graph} : graph = .text text → Json.decode Graph.reader text = .ok g →
      c.query? = some query → (∀ e ∈ g.nodes, e.AnswersTo query → settings.Excludes e) →
      Faulty settings graph c (.noEntity query)

end Command

/-! ### The graph -/

namespace Graph

theorem leastId_eq_none_iff {l : List Entity} : leastId l = none ↔ l = [] := by
  cases l with
  | nil => exact iff_of_true rfl rfl
  | cons e rest =>
    refine iff_of_false ?_ (List.cons_ne_nil e rest)
    rw [leastId]
    cases leastId rest with
    | none => exact Option.some_ne_none e
    | some other =>
      dsimp only
      split <;> exact Option.some_ne_none _

theorem find?_eq_none_iff {g : Graph} {query : String} :
    g.find? query = none ↔ ∀ e ∈ g.nodes, ¬ e.AnswersTo query := by
  have hid : g.entity? query = none ↔ ∀ e ∈ g.nodes, e.id ≠ query := by
    simp [entity?]
  have hname : leastId (g.nodes.filter fun e => e.name = query) = none ↔ ∀ e ∈ g.nodes, e.name ≠ query := by
    rw [leastId_eq_none_iff]
    simp [List.filter_eq_nil_iff]
  have hfind : g.find? query = none ↔
      g.entity? query = none ∧ leastId (g.nodes.filter fun e => e.name = query) = none := by
    rw [find?]
    cases g.entity? query <;> simp
  rw [hfind, hid, hname]
  constructor
  · intro h e he hanswers
    exact hanswers.elim (h.1 e he) (h.2 e he)
  · intro h
    exact ⟨fun e he hid => h e he (.inl hid), fun e he hname => h e he (.inr hname)⟩

theorem ofContent_cases (path : String) (graph : FileContent) :
    (∀ text, graph ≠ .text text) ∧ ofContent path graph = .error (.unreadableGraph path) ∨
    (∃ text, graph = .text text ∧ (∀ g, Json.decode reader text ≠ .ok g) ∧
      ofContent path graph = .error (.invalidGraph path)) ∨
    ∃ text g, graph = .text text ∧ Json.decode reader text = .ok g ∧ ofContent path graph = .ok g := by
  cases graph with
  | missing => exact .inl ⟨fun _ h => FileContent.noConfusion h, rfl⟩
  | unreadable => exact .inl ⟨fun _ h => FileContent.noConfusion h, rfl⟩
  | text text =>
    right
    cases hdecode : Json.decode reader text with
    | error e => exact .inl ⟨text, rfl, by simp [hdecode], by simp [ofContent, hdecode]⟩
    | ok g => exact .inr ⟨text, g, rfl, hdecode, by simp [ofContent, hdecode]⟩

end Graph

/-! ### Settings -/

namespace Settings

theorem excludes_iff {s : Settings} {path : String} :
    s.excludes path = true ↔
      ∃ pattern ∈ s.excludeTexts, ∃ glob, Glob.ofText? pattern = some glob ∧ glob.accepts path = true := by
  rw [excludes, List.any_eq_true]
  constructor
  · rintro ⟨glob, hglob, haccepts⟩
    obtain ⟨pattern, hpattern, hread⟩ := List.mem_filterMap.1 hglob
    exact ⟨pattern, hpattern, glob, hread, haccepts⟩
  · rintro ⟨pattern, hpattern, glob, hread, haccepts⟩
    exact ⟨glob, List.mem_filterMap.2 ⟨pattern, hpattern, hread⟩, haccepts⟩

theorem not_excludes_unset (path : String) : unset.excludes path = false := rfl

theorem ofContent_cases (content : FileContent) :
    ((∀ text settings, content = .text text → ofText? text ≠ some settings) ∧ (ofContent content).2 = unset) ∨
      ∃ text settings, content = .text text ∧ ofText? text = some settings ∧ (ofContent content).2 = settings := by
  cases content with
  | missing => exact .inl ⟨fun _ _ h => FileContent.noConfusion h, rfl⟩
  | unreadable => exact .inl ⟨fun _ _ h => FileContent.noConfusion h, rfl⟩
  | text text =>
    cases hsettings : ofText? text with
    | none =>
      refine .inl ⟨?_, by simp [ofContent, hsettings]⟩
      intro text' settings htext
      cases htext
      rw [hsettings]
      exact (Option.some_ne_none settings).symm
    | some settings => exact .inr ⟨text, settings, rfl, hsettings, by simp [ofContent, hsettings]⟩

/-- Settings that are not usable exclude nothing. -/
theorem excludes_ofContent {content : FileContent} {e : Entity} :
    (∃ path, e.file = some path ∧ (ofContent content).2.excludes path = true) ↔ content.Excludes e := by
  rcases ofContent_cases content with ⟨hno, hunset⟩ | ⟨text, settings, rfl, hsettings, hcontent⟩
  · rw [hunset]
    refine iff_of_false ?_ ?_
    · rintro ⟨path, -, hexcludes⟩
      rw [not_excludes_unset] at hexcludes
      exact Bool.false_ne_true hexcludes
    · rintro ⟨text, settings, htext, hread, -⟩
      exact hno text settings htext hread
  · rw [hcontent]
    constructor
    · rintro ⟨path, hfile, hexcludes⟩
      obtain ⟨pattern, hpattern, glob, hread, haccepts⟩ := excludes_iff.1 hexcludes
      exact ⟨text, settings, rfl, hsettings, pattern, hpattern, glob, path, hread, hfile, haccepts⟩
    · rintro ⟨text', settings', htext, hsettings', pattern, hpattern, glob, path, hread, hfile, haccepts⟩
      cases htext
      rw [hsettings] at hsettings'
      cases hsettings'
      exact ⟨path, hfile, excludes_iff.2 ⟨pattern, hpattern, glob, hread, haccepts⟩⟩

/-- A query has no answer any more exactly if all its answers are excluded. -/
theorem find?_applyExcludes_eq_none_iff {content : FileContent} {g : Graph} {query : String} :
    ((ofContent content).2.applyExcludes g).find? query = none ↔
      ∀ e ∈ g.nodes, e.AnswersTo query → content.Excludes e := by
  rw [Graph.find?_eq_none_iff]
  constructor
  · intro h e he hanswers
    by_contra hkept
    refine h e (Graph.mem_nodes_withoutFiles.2 ⟨he, ?_⟩) hanswers
    intro path hfile
    rw [← Bool.not_eq_true]
    exact fun hexcludes => hkept (excludes_ofContent.1 ⟨path, hfile, hexcludes⟩)
  · intro h e he hanswers
    have hsurvives := Graph.mem_nodes_withoutFiles.1 he
    obtain ⟨path, hfile, hexcludes⟩ := excludes_ofContent.2 (h e hsurvives.listed hanswers)
    rw [hsurvives.file path hfile] at hexcludes
    exact Bool.false_ne_true hexcludes

end Settings

/-! ### Running -/

namespace Command

variable {fits : UsageRule.Capacity} {c : Command} {failure : Failure}

theorem select_bind_eq_error_iff {g : Graph} {query : String} {α : Type} {f : Entity → α} :
    (select g query >>= fun e => pure (f e)) = .error failure ↔
      g.find? query = none ∧ failure = .noEntity query := by
  rw [select]
  cases g.find? query with
  | none => simp [bind, Except.bind, eq_comm]
  | some e => simp [bind, Except.bind, pure, Except.pure]

/-- With a graph at hand a command fails only for want of the entity asked for. -/
theorem reportOn_eq_error_iff {settings : Settings} {g : Graph} :
    reportOn fits settings g c = .error failure ↔
      ∃ query, c.query? = some query ∧ g.find? query = none ∧ failure = .noEntity query := by
  cases c with
  | filter => simp [reportOn, query?]
  | tree _ query =>
    simp only [query?, Option.some.injEq, exists_eq_left']
    exact select_bind_eq_error_iff
  | refs _ query =>
    simp only [query?, Option.some.injEq, exists_eq_left']
    exact select_bind_eq_error_iff
  | stats _ query =>
    simp only [query?, Option.some.injEq, exists_eq_left']
    exact select_bind_eq_error_iff

variable {settings graph : FileContent}

/-- A command that was run fails or has a report. -/
theorem runOn_cases (fits : UsageRule.Capacity) (settings graph : FileContent) (c : Command) :
    (∃ warnings failure, c.runOn fits settings graph = .failed warnings failure) ∨
      ∃ warnings report, c.runOn fits settings graph = .done warnings report := by
  rw [runOn]
  cases Graph.ofContent c.graphPath graph with
  | error failure => exact .inl ⟨_, failure, rfl⟩
  | ok g =>
    dsimp only
    cases reportOn fits _ _ c with
    | error failure => exact .inl ⟨_, failure, rfl⟩
    | ok report => exact .inr ⟨_, report.2, rfl⟩

theorem failure?_runOn_of_error (hgraph : Graph.ofContent c.graphPath graph = .error failure) :
    (c.runOn fits settings graph).failure? = some failure := by
  rw [runOn, hgraph]
  rfl

theorem failure?_runOn_of_ok {g : Graph} (hgraph : Graph.ofContent c.graphPath graph = .ok g) :
    (c.runOn fits settings graph).failure? = some failure ↔
      reportOn fits (Settings.ofContent settings).2 ((Settings.ofContent settings).2.applyExcludes g) c =
        .error failure := by
  rw [runOn, hgraph]
  dsimp only
  cases reportOn fits _ _ c with
  | error other => simp [Outcome.failure?]
  | ok report => simp [Outcome.failure?]

/-- A command fails for its faults and for nothing else. -/
theorem failure?_runOn :
    (c.runOn fits settings graph).failure? = some failure ↔ c.Faulty settings graph failure := by
  rcases Graph.ofContent_cases c.graphPath graph with
    ⟨hno, hgraph⟩ | ⟨text, htext, hinvalid, hgraph⟩ | ⟨text, g, htext, hdecode, hgraph⟩
  · rw [failure?_runOn_of_error hgraph, Option.some_inj]
    constructor
    · rintro rfl
      exact .unreadable hno
    · intro h
      cases h with
      | unreadable => rfl
      | invalid htext => exact absurd htext (hno _)
      | noEntity htext => exact absurd htext (hno _)
  · rw [failure?_runOn_of_error hgraph, Option.some_inj]
    constructor
    · rintro rfl
      exact .invalid htext hinvalid
    · intro h
      cases h with
      | unreadable hno => exact absurd htext (hno _)
      | invalid => rfl
      | noEntity htext' hdecode =>
        rw [htext] at htext'
        cases htext'
        exact absurd hdecode (hinvalid _)
  · rw [failure?_runOn_of_ok hgraph, reportOn_eq_error_iff]
    constructor
    · rintro ⟨query, hquery, hfind, rfl⟩
      exact .noEntity htext hdecode hquery (Settings.find?_applyExcludes_eq_none_iff.1 hfind)
    · intro h
      cases h with
      | unreadable hno => exact absurd htext (hno _)
      | invalid htext' hinvalid =>
        rw [htext] at htext'
        cases htext'
        exact absurd hdecode (hinvalid _)
      | @noEntity text' query g' htext' hdecode' hquery hexcluded =>
        rw [htext] at htext'
        cases htext'
        rw [hdecode] at hdecode'
        cases hdecode'
        exact ⟨query, hquery, Settings.find?_applyExcludes_eq_none_iff.2 hexcluded, rfl⟩

theorem exitCode_runOn_eq_one_iff :
    (c.runOn fits settings graph).exitCode = 1 ↔ ∃ failure, c.Faulty settings graph failure := by
  have hcode : (c.runOn fits settings graph).exitCode = 1 ↔
      ∃ failure, (c.runOn fits settings graph).failure? = some failure := by
    rcases runOn_cases fits settings graph c with ⟨_, failure, hrun⟩ | ⟨_, _, hrun⟩
    · rw [hrun]
      exact iff_of_true rfl ⟨failure, rfl⟩
    · rw [hrun]
      refine iff_of_false Nat.zero_ne_one ?_
      rintro ⟨_, hnone⟩
      cases hnone
  rw [hcode]
  exact exists_congr fun _ => failure?_runOn

theorem exitCode_runOn_of_ne (h : (c.runOn fits settings graph).exitCode ≠ 1) :
    (c.runOn fits settings graph).exitCode = 0 := by
  rcases runOn_cases fits settings graph c with ⟨_, _, hrun⟩ | ⟨_, _, hrun⟩
  · rw [hrun] at h
    exact absurd rfl h
  · rw [hrun]
    rfl

theorem output_runOn_of_exitCode (h : (c.runOn fits settings graph).exitCode = 1) :
    (c.runOn fits settings graph).output = "" := by
  rcases runOn_cases fits settings graph c with ⟨_, _, hrun⟩ | ⟨_, _, hrun⟩
  · rw [hrun]
    rfl
  · rw [hrun] at h
    exact absurd h Nat.zero_ne_one

/-- Of the faults of a command, settings have a share in the last one alone. -/
theorem Faulty.of_other_settings {other : FileContent} (h : c.Faulty settings graph failure)
    (hother : ¬ ∃ failure, c.Faulty other graph failure) :
    ∃ text g query, graph = .text text ∧ Json.decode Graph.reader text = .ok g ∧ c.query? = some query ∧
      (∃ e ∈ g.nodes, e.AnswersTo query) ∧ ∀ e ∈ g.nodes, e.AnswersTo query → settings.Excludes e := by
  cases h with
  | unreadable hno => exact absurd ⟨_, .unreadable hno⟩ hother
  | invalid htext hinvalid => exact absurd ⟨_, .invalid htext hinvalid⟩ hother
  | @noEntity text query g htext hdecode hquery hexcluded =>
    refine ⟨text, g, query, htext, hdecode, hquery, ?_, hexcluded⟩
    -- a query that nothing answers to fails next to any settings
    by_contra hnone
    refine hother ⟨_, .noEntity htext hdecode hquery ?_⟩
    intro e he hanswers
    exact absurd ⟨e, he, hanswers⟩ hnone

end Command

namespace Outcome

theorem ofArguments_eq {args : List String} {c : Command} (hargs : Arguments.command args = .ok c)
    (fits : UsageRule.Capacity) (read : String → FileContent) :
    ofArguments fits read args =
      c.runOn fits (read (Settings.pathFor c.graphPath)) (read c.graphPath) := by
  rw [ofArguments, hargs]
  rfl

/-- **A command fails exactly when it cannot be carried out.**  Run the program with arguments that ask for a
command.  It ends with code one if the graph cannot be read as text, or the text is no graph, or whatever
answers to the query is excluded, and then it prints nothing; it ends with code zero otherwise.  If the same
command on the same graph fails, but succeeds with other files around, then something answers to the query and
the settings exclude all of it.  A run that is broken off, because there is no room left for the stack or because
a column of a report is wider than can be printed, is not spoken of here. -/
theorem exitCode_ofArguments (fits : UsageRule.Capacity) (read : String → FileContent) {args : List String}
    {c : Command} (hargs : Arguments.command args = .ok c) :
    let settings := read (Settings.pathFor c.graphPath)
    ((ofArguments fits read args).exitCode = 1 ↔
        ∃ failure, c.Faulty settings (read c.graphPath) failure) ∧
      ((ofArguments fits read args).exitCode ≠ 1 → (ofArguments fits read args).exitCode = 0) ∧
      ((ofArguments fits read args).exitCode = 1 → (ofArguments fits read args).output = "") ∧
      ∀ read' : String → FileContent, read' c.graphPath = read c.graphPath →
        (ofArguments fits read args).exitCode = 1 → (ofArguments fits read' args).exitCode = 0 →
        ∃ text g query, read c.graphPath = .text text ∧ Json.decode Graph.reader text = .ok g ∧
          c.query? = some query ∧ (∃ e ∈ g.nodes, e.AnswersTo query) ∧
          ∀ e ∈ g.nodes, e.AnswersTo query → settings.Excludes e := by
  intro settings
  rw [ofArguments_eq hargs]
  refine ⟨Command.exitCode_runOn_eq_one_iff, Command.exitCode_runOn_of_ne,
    Command.output_runOn_of_exitCode, ?_⟩
  intro read' hgraph hfails hsucceeds
  obtain ⟨failure, hfaulty⟩ := Command.exitCode_runOn_eq_one_iff.1 hfails
  have hother : ¬ ∃ failure, c.Faulty (read' (Settings.pathFor c.graphPath)) (read c.graphPath) failure := by
    intro hfaulty'
    rw [ofArguments_eq hargs, hgraph, Command.exitCode_runOn_eq_one_iff.2 hfaulty'] at hsucceeds
    exact absurd hsucceeds Nat.one_ne_zero
  exact hfaulty.of_other_settings hother

/-- A graph with one entity and a file of settings, in one directory. -/
def shelf (settings : String) : FileTree :=
  .ofPaths [("lib/graph.json", .text "[[[\"a\", \"app\", \"src/a.ts\"]]]"),
    ("lib/code-hierarchy.toml", .text settings)]

/-- One pattern makes no sense and the other one excludes the entity.  Where the list of patterns is not closed
the settings are passed over. -/
theorem exitCode_ofArguments_shelf :
    let args := ["tree", "lib/graph.json", "app"]
    let read := (shelf "exclude = ['[', 'src/**']").read
    Arguments.command args = .ok (.tree "lib/graph.json" "app" none [] false none .compact) ∧
      (ofArguments UsageRule.unlimited read args).exitCode = 1 ∧
      (ofArguments UsageRule.unlimited read args).output = "" ∧
      (ofArguments UsageRule.unlimited (shelf "exclude = ['src/**'").read args).exitCode = 0 ∧
      ∃ text g query, read "lib/graph.json" = .text text ∧ Json.decode Graph.reader text = .ok g ∧
        query = "app" ∧ (∃ e ∈ g.nodes, e.AnswersTo query) ∧
        ∀ e ∈ g.nodes, e.AnswersTo query → (read (Settings.pathFor "lib/graph.json")).Excludes e := by
  intro args read
  have hargs : Arguments.command args = .ok (.tree "lib/graph.json" "app" none [] false none .compact) := rfl
  have hfails : (ofArguments UsageRule.unlimited read args).exitCode = 1 := by decide +kernel
  have hsucceeds : (ofArguments UsageRule.unlimited (shelf "exclude = ['src/**'").read args).exitCode = 0 := by
    decide +kernel
  have hgraph : (shelf "exclude = ['src/**'").read "lib/graph.json" = read "lib/graph.json" := by
    decide +kernel
  have hrun := exitCode_ofArguments UsageRule.unlimited read hargs
  refine ⟨hargs, hfails, hrun.2.2.1 hfails, hsucceeds, ?_⟩
  obtain ⟨text, g, query, htext, hdecode, hquery, hexcluded⟩ := hrun.2.2.2 _ hgraph hfails hsucceeds
  exact ⟨text, g, query, htext, hdecode, (Option.some.inj hquery).symm, hexcluded⟩

end Outcome

end CodeAtlas
