import UnusedAssets.CommandLine.Run
import UnusedAssets.Proofs.Analysis
import UnusedAssets.Proofs.Config

/-!
# Stages of a run

A run stops before it knows what is unused if there is no project, if the path of the script is
rejected or if the analysis fails; else it has an analysis to present (`stops_or_analyzes`). From
then on each stage only adds to the output, and only the last two write to the tree.
-/

namespace UnusedAssets.CommandLine

namespace Outcome

variable (r : Outcome) (w : Surroundings) (o : Options) (events : List Event) (s cause : String)

@[simp] theorem say_exit : (r.say s).exit = r.exit := rfl

@[simp] theorem say_tree : (r.say s).tree = r.tree := rfl

@[simp] theorem report_exit : (r.report w o events).exit = r.exit := rfl

@[simp] theorem report_output : (r.report w o events).output = r.output := rfl

@[simp] theorem report_tree : (r.report w o events).tree = r.tree := rfl

@[simp] theorem fail_exit : (r.fail s).exit = 1 := rfl

@[simp] theorem fail_output : (r.fail s).output = r.output := rfl

@[simp] theorem fail_tree : (r.fail s).tree = r.tree := rfl

@[simp] theorem failBecause_exit : (r.failBecause s cause).exit = 1 := rfl

@[simp] theorem failBecause_output : (r.failBecause s cause).output = r.output := rfl

@[simp] theorem failBecause_tree : (r.failBecause s cause).tree = r.tree := rfl

end Outcome

def project? (w : Surroundings) (o : Options) : Option Project :=
  (w.tree.projectRoot? w.cwd (o.path.getD ".")).map fun l => ⟨w.tree, w.cwd, Location.path l⟩

def settingsFor (o : Options) (p : Project) : Settings :=
  (configOf p).1.settings ++ ⟨o.exclude, o.ignore⟩

def choosesJson (o : Options) (p : Project) : Bool := o.json || (configOf p).1.wantsJson

def configured (w : Surroundings) (p : Project) : Outcome :=
  (configOf p).2.elim { tree := w.tree } fun warning => Outcome.note { tree := w.tree } warning

def opening (w : Surroundings) (o : Options) (p : Project) : Outcome :=
  if choosesJson o p then configured w p
  else (configured w p).say ("Analyzing used files in " ++ p.rootText ++ " ...\n")

def presented (w : Surroundings) (o : Options) (p : Project) (a : Analysis) (events : List Event) :
    Outcome :=
  present w o (choosesJson o p) a (a.removalCommands w.reply) ((opening w o p).report w o events)

/-- Why a run stops before it knows what is unused. -/
inductive Stops (w : Surroundings) (o : Options) : Prop where
  | noProject (missing : project? w o = none)
  | rejected {p : Project} {fault : OutputFault} (found : project? w o = some p)
      (rejects : scriptPath o (configOf p).1 = .error fault)
  | failed {p : Project} {script : Option String} {f : Failure} (found : project? w o = some p)
      (accepts : scriptPath o (configOf p).1 = .ok script)
      (fails : p.analyze (settingsFor o p) = .error f)

/-- What a run knows that has analyzed its project. -/
structure Analyzes (w : Surroundings) (o : Options) (p : Project) (script : Option String)
    (a : Analysis) (events : List Event) : Prop where
  found : project? w o = some p
  accepts : scriptPath o (configOf p).1 = .ok script
  analyzes : p.analyze (settingsFor o p) = .ok (a, events)

variable {w : Surroundings} {o : Options} {p : Project} {script : Option String} {a : Analysis}
  {events : List Event} {fault : OutputFault} {f : Failure} {words : List String}

theorem stops_or_analyzes (w : Surroundings) (o : Options) :
    Stops w o ∨ ∃ p script a events, Analyzes w o p script a events := by
  cases hp : project? w o with
  | none => exact .inl (.noProject hp)
  | some p =>
    cases hscript : scriptPath o (configOf p).1 with
    | error fault => exact .inl (.rejected hp hscript)
    | ok script =>
      cases ha : p.analyze (settingsFor o p) with
      | error f => exact .inl (.failed hp hscript ha)
      | ok result => exact .inr ⟨p, script, result.1, result.2, hp, hscript, ha⟩

theorem Analyzes.not_stops (h : Analyzes w o p script a events) : ¬ Stops w o := by
  intro hstops
  cases hstops with
  | noProject missing => simp [h.found] at missing
  | rejected found rejects =>
    obtain rfl := Option.some.inj (h.found.symm.trans found)
    simp [h.accepts] at rejects
  | failed found _ fails =>
    obtain rfl := Option.some.inj (h.found.symm.trans found)
    simp [h.analyzes] at fails

theorem run_of_noProject (h : project? w o = none) :
    run w o = Outcome.fail { tree := w.tree }
      ("Failed to find project root from: " ++ o.path.getD ".") := by
  have hroot : w.tree.projectRoot? w.cwd (o.path.getD ".") = none := Option.map_eq_none_iff.mp h
  rw [run, hroot]

/-- How a run goes on that has found its project. -/
theorem run_of_project (h : project? w o = some p) : run w o =
    match scriptPath o (configOf p).1 with
    | .error fault => (configured w p).fail fault.message
    | .ok script =>
      match p.analyze (settingsFor o p) with
      | .error f =>
        (opening w o p).failBecause ("Failed to analyze project: " ++ p.rootText) f.message
      | .ok (a, events) =>
        writeFiles w o (choosesJson o p) script a (a.removalCommands w.reply)
          (presented w o p a events) := by
  obtain ⟨l, hl, rfl⟩ := Option.map_eq_some_iff.mp h
  rw [run, hl]
  rfl

theorem run_of_rejected (hp : project? w o = some p)
    (h : scriptPath o (configOf p).1 = .error fault) :
    run w o = (configured w p).fail fault.message := by
  rw [run_of_project hp, h]

theorem run_of_failed (hp : project? w o = some p)
    (hscript : scriptPath o (configOf p).1 = .ok script)
    (h : p.analyze (settingsFor o p) = .error f) :
    run w o = (opening w o p).failBecause ("Failed to analyze project: " ++ p.rootText) f.message := by
  rw [run_of_project hp, hscript]
  simp only [h]

theorem Analyzes.run_eq (h : Analyzes w o p script a events) : run w o =
    writeFiles w o (choosesJson o p) script a (a.removalCommands w.reply)
      (presented w o p a events) := by
  rw [run_of_project h.found, h.accepts]
  simp only [h.analyzes]

theorem execute_of_request (h : request words = .ok (.run o)) : execute w words = run w o := by
  rw [execute, h]

theorem configOf_of_ok {c : Option Config} (h : Config.load p = .ok c) :
    configOf p = (c.getD {}, none) := by
  rw [configOf, h]

theorem configOf_of_absent {t : FileTree} {cwd : Location}
    (habsent : t.lookup? [Text.encode Config.fileName] = none) :
    configOf ⟨t, cwd, "/"⟩ = ({}, none) := by
  have htop : Location.path [] = "/" := by decide
  rw [← htop, configOf_of_ok (Config.load_of_absent (FileTree.lookup?_nil t) habsent)]
  rfl

theorem configOf_of_error {f : Config.LoadFailure} (h : Config.load p = .error f) :
    configOf p = ({}, some (configWarning f)) := by
  rw [configOf, h]

theorem configOf_congr {p' : Project} (h : Config.load p' = Config.load p) :
    configOf p' = configOf p := by
  cases hload : Config.load p with
  | ok c => rw [configOf_of_ok hload, configOf_of_ok (h.trans hload)]
  | error f => rw [configOf_of_error hload, configOf_of_error (h.trans hload)]

theorem scriptPath_of_noScript (h : o.noScript = true) (c : Config) :
    scriptPath o c = .ok none := by
  rw [scriptPath, if_pos h]

theorem scriptPath_of_script {path : String} (hwrites : o.noScript = false)
    (hpath : o.script = some path) (hcheck : checkOutput path = .ok ()) (c : Config) :
    scriptPath o c = .ok (some path) := by
  rw [scriptPath, hwrites, if_neg (by decide), hpath]
  exact congrArg (Except.map fun _ => some path) hcheck

theorem nearestRoot?_top (t : FileTree) : (t.nearestRoot? []).getD [] = [] := by
  unfold FileTree.nearestRoot?
  cases t.isProjectRoot [] (Location.path []) <;> rfl

theorem locate_top (t : FileTree) : t.locate [] "." = .ok [] := by
  have hwalk : t.Leads [] (FileTree.steps ".") [] [] := .stay rfl rfl (.done [])
  exact FileTree.locate_eq_ok_iff.mpr ⟨by decide, by decide, [], by decide, hwalk⟩

theorem projectRoot?_top (t : FileTree) : t.projectRoot? [] "." = some [] := by
  rw [FileTree.projectRoot?, locate_top]
  exact congrArg some (nearestRoot?_top t)

theorem project?_top (hcwd : w.cwd = []) (hpath : o.path = none) :
    project? w o = some ⟨w.tree, w.cwd, "/"⟩ := by
  rw [project?, hcwd, hpath, Option.getD_none, projectRoot?_top, Option.map_some]
  rfl

/-- In the top folder of a tree a run that writes its script to an accepted path, or writes none,
has an analysis. -/
theorem exists_analyzes_top (hcwd : w.cwd = []) (hpath : o.path = none)
    (hscript : ∀ c, scriptPath o c = .ok script) :
    ∃ a events, Analyzes w o ⟨w.tree, [], "/"⟩ script a events := by
  have hproject : project? w o = some ⟨w.tree, [], "/"⟩ := hcwd ▸ project?_top hcwd hpath
  obtain ⟨a, events, ha⟩ := Project.exists_analyze (p := ⟨w.tree, [], "/"⟩)
    (s := settingsFor o ⟨w.tree, [], "/"⟩) (FileTree.isFolder_top _ _)
  exact ⟨a, events, hproject, hscript _, ha⟩

section Stages

variable (w : Surroundings) (o : Options) (p : Project) (json : Bool) (a : Analysis)
  (g : UsageGraph) (commands : List RemovalCommand) (r : Outcome)

@[simp] theorem configured_exit : (configured w p).exit = 0 := by
  rw [configured]
  cases (configOf p).2 <;> rfl

@[simp] theorem configured_output : (configured w p).output = "" := by
  rw [configured]
  cases (configOf p).2 <;> rfl

@[simp] theorem configured_tree : (configured w p).tree = w.tree := by
  rw [configured]
  cases (configOf p).2 <;> rfl

@[simp] theorem opening_exit : (opening w o p).exit = 0 := by
  rw [opening]
  split <;> simp

@[simp] theorem opening_tree : (opening w o p).tree = w.tree := by
  rw [opening]
  split <;> simp

theorem opening_output (h : choosesJson o p = true) : (opening w o p).output = "" := by
  rw [opening, if_pos h, configured_output]

@[simp] theorem present_exit : (present w o json a commands r).exit = r.exit := by
  rw [present]
  cases json <;> cases o.explain <;> rfl

@[simp] theorem present_tree : (present w o json a commands r).tree = r.tree := by
  rw [present]
  cases json <;> cases o.explain <;> rfl

theorem present_output : (present w o true a commands r).output =
    r.output ++ ((Report.document a commands).pretty ++ "\n") := by
  rw [present]
  cases o.explain <;> rfl

@[simp] theorem presented_exit (events : List Event) : (presented w o p a events).exit = 0 := by
  rw [presented, present_exit, Outcome.report_exit, opening_exit]

@[simp] theorem presented_tree (events : List Event) :
    (presented w o p a events).tree = w.tree := by
  rw [presented, present_tree, Outcome.report_tree, opening_tree]

theorem presented_output (events : List Event) (h : choosesJson o p = true) :
    (presented w o p a events).output =
      (Report.document a (a.removalCommands w.reply)).pretty ++ "\n" := by
  rw [presented, h, present_output, Outcome.report_output, opening_output _ _ _ h,
    String.empty_append]

def RejectsDiagram (o : Options) : Prop :=
  ∃ path fault, o.dotFile = some path ∧ checkOutput path = .error fault

variable {o}

theorem drawDiagram_of_rejected (h : RejectsDiagram o) :
    (drawDiagram w o json g r).exit = 2 ∧ (drawDiagram w o json g r).tree = r.tree := by
  obtain ⟨path, fault, hpath, hfault⟩ := h
  simp [drawDiagram, hpath, hfault]

theorem drawDiagram_exit (h : ¬ RejectsDiagram o) : (drawDiagram w o json g r).exit = r.exit := by
  rw [drawDiagram]
  split
  · next path hpath =>
    split
    · next fault hfault => exact absurd ⟨path, fault, hpath, hfault⟩ h
    · split <;> rfl
  · cases o.dot <;> cases json <;> rfl

variable (o)

theorem drawDiagram_output : (drawDiagram w o true g r).output = r.output := by
  rw [drawDiagram]
  split
  · split
    · rfl
    · split <;> rfl
  · cases o.dot <;> rfl

/-- A run that has written its script, which gave a tree. -/
def saved (w : Surroundings) (o : Options) (json : Bool) (path contents : String) (tree : FileTree)
    (r : Outcome) : Outcome :=
  let r := { r with tree }.report w o [RemovalScript.writtenEvent path contents]
  if json then r.note ("Commands saved to: " ++ path ++ "\n") else r.say (savedNote path)

variable (path contents : String) (tree : FileTree)

@[simp] theorem saved_exit : (saved w o json path contents tree r).exit = r.exit := by
  cases json <;> rfl

@[simp] theorem saved_tree : (saved w o json path contents tree r).tree = tree := by
  cases json <;> rfl

@[simp] theorem saved_output : (saved w o true path contents tree r).output = r.output := rfl

variable {a r path tree}

theorem writeFiles_failed {f : Failure} (h : RemovalScript.write r.tree w.cwd path
    (RemovalScript.text a.root commands (some w.now)) = .error f) :
    writeFiles w o json (some path) a commands r = r.fail f.message := by
  simp only [writeFiles, h]

theorem writeFiles_saved (h : RemovalScript.write r.tree w.cwd path
    (RemovalScript.text a.root commands (some w.now)) = .ok tree) :
    writeFiles w o json (some path) a commands r = drawDiagram w o json a.graph
      (saved w o json path (RemovalScript.text a.root commands (some w.now)) tree r) := by
  simp only [writeFiles, h]
  rfl

/-- Where the report is JSON, nothing is put behind it. -/
theorem writeFiles_output (script : Option String) :
    (writeFiles w o true script a commands r).output = r.output := by
  cases script with
  | none => exact drawDiagram_output w o a.graph r
  | some path =>
    cases hwrite : RemovalScript.write r.tree w.cwd path
        (RemovalScript.text a.root commands (some w.now)) with
    | error f => rw [writeFiles_failed w o true commands hwrite, Outcome.fail_output]
    | ok tree => rw [writeFiles_saved w o true commands hwrite, drawDiagram_output, saved_output]

end Stages

end UnusedAssets.CommandLine
