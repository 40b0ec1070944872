import UnusedAssets.Proofs.CommandLine.Run
import UnusedAssets.Proofs.FileTree.Destination

/-!
# How a run ends

A run with an analysis ends with status zero unless its script cannot be written or the path of its
diagram is rejected; a diagram that cannot be written is only told (`exit_of_analyzes`). The path of
the script is looked at before anything is done, that of the diagram after the script was written,
so a run that is stopped by it leaves the script behind (`tree_of_rejected_path`).
-/

namespace UnusedAssets.CommandLine

open Text FileTree

def scriptOf (w : Surroundings) (a : Analysis) : String :=
  RemovalScript.text a.root (a.removalCommands w.reply) (some w.now)

def FailsToWrite (w : Surroundings) (script : Option String) (a : Analysis) : Prop :=
  ∃ path f, script = some path ∧ RemovalScript.write w.tree w.cwd path (scriptOf w a) = .error f

variable {w : Surroundings} {o : Options} {p : Project} {script : Option String} {a : Analysis}
  {events : List Event} {words : List String}

/-- A run that stops before it has an analysis ends with status one and leaves the tree as it
was. -/
theorem Stops.ending (h : Stops w o) : (run w o).exit = 1 ∧ (run w o).tree = w.tree := by
  cases h with
  | noProject missing => simp [run_of_noProject missing]
  | rejected found rejects => simp [run_of_rejected found rejects]
  | failed found accepts fails => simp [run_of_failed found accepts fails]

theorem Analyzes.exit_of_fails (h : Analyzes w o p script a events) (hf : FailsToWrite w script a) :
    (run w o).exit = 1 := by
  obtain ⟨path, f, rfl, hwrite⟩ := hf
  rw [← presented_tree w o p a events] at hwrite
  rw [h.run_eq, writeFiles_failed _ _ _ _ hwrite, Outcome.fail_exit]

/-- A run that does not fail to write its script goes on with the diagram, from the tree in which
the script is. -/
theorem Analyzes.exists_drawDiagram (h : Analyzes w o p script a events)
    (hf : ¬ FailsToWrite w script a) : ∃ r : Outcome,
      run w o = drawDiagram w o (choosesJson o p) a.graph r ∧ r.exit = 0 ∧
        (script = none → r.tree = w.tree) ∧
        ∀ path, script = some path →
          RemovalScript.write w.tree w.cwd path (scriptOf w a) = .ok r.tree := by
  rw [h.run_eq]
  cases script with
  | none => exact ⟨_, rfl, by simp, by simp, by simp⟩
  | some path =>
    cases hwrite : RemovalScript.write w.tree w.cwd path (scriptOf w a) with
    | error f => exact absurd ⟨path, f, rfl, hwrite⟩ hf
    | ok tree =>
      rw [← presented_tree w o p a events] at hwrite
      refine ⟨_, writeFiles_saved _ _ _ _ hwrite, by simp, by simp, fun path' hpath => ?_⟩
      rw [← Option.some.inj hpath, saved_tree, ← hwrite, presented_tree]

theorem Analyzes.exit_of_rejected (h : Analyzes w o p script a events)
    (hf : ¬ FailsToWrite w script a) (hd : RejectsDiagram o) : (run w o).exit = 2 := by
  obtain ⟨r, hrun, -⟩ := h.exists_drawDiagram hf
  rw [hrun, (drawDiagram_of_rejected w _ _ r hd).1]

theorem Analyzes.exit_of_accepted (h : Analyzes w o p script a events)
    (hf : ¬ FailsToWrite w script a) (hd : ¬ RejectsDiagram o) : (run w o).exit = 0 := by
  obtain ⟨r, hrun, hexit, -⟩ := h.exists_drawDiagram hf
  rw [hrun, drawDiagram_exit w _ _ r hd, hexit]

/-- A run with an analysis ends with status zero exactly if its script, where there is one, is
written and the path of its diagram is not rejected. -/
theorem exit_of_analyzes (hwords : request words = .ok (.run o))
    (h : Analyzes w o p script a events) :
    ((execute w words).exit = 0 ↔ ¬ FailsToWrite w script a ∧ ¬ RejectsDiagram o) ∧
      ((execute w words).exit = 1 ↔ FailsToWrite w script a) ∧
      ((execute w words).exit = 2 ↔ ¬ FailsToWrite w script a ∧ RejectsDiagram o) := by
  rw [execute_of_request hwords]
  by_cases hf : FailsToWrite w script a
  · simp [h.exit_of_fails hf, hf]
  · by_cases hd : RejectsDiagram o
    · simp [h.exit_of_rejected hf hd, hf, hd]
    · simp [h.exit_of_accepted hf hd, hf, hd]

def inEmptyTree : Surroundings := ⟨∅, [], .missing, none, ⟨0, 0⟩⟩

theorem checkOutput_cleanScript : checkOutput "clean.sh" = .ok () := by decide

theorem exists_write_inEmptyTree (contents : String) : ∃ t',
    RemovalScript.write inEmptyTree.tree inEmptyTree.cwd "clean.sh" contents = .ok t' ∧
      ∀ l, t'.lookup? l = if l = [encode "clean.sh"] then some (.file (encode contents) true)
        else inEmptyTree.tree.lookup? l :=
  RemovalScript.exists_write (by decide) rfl rfl contents

theorem not_failsToWrite_inEmptyTree (a : Analysis) :
    ¬ FailsToWrite inEmptyTree (some "clean.sh") a := by
  rintro ⟨path, f, hpath, hfails⟩
  obtain rfl := Option.some.inj hpath
  obtain ⟨t', hwrites, -⟩ := exists_write_inEmptyTree (scriptOf inEmptyTree a)
  exact absurd (hfails.symm.trans hwrites) (by simp)

theorem exit_of_analyzes_inEmptyTree : ∃ o p script a events,
    request ["--script", "clean.sh"] = .ok (.run o) ∧
      Analyzes inEmptyTree o p script a events ∧ ¬ FailsToWrite inEmptyTree script a ∧
      ¬ RejectsDiagram o ∧ (execute inEmptyTree ["--script", "clean.sh"]).exit = 0 := by
  let o : Options := { script := some "clean.sh" }
  have hwords : request ["--script", "clean.sh"] = .ok (.run o) := by decide
  obtain ⟨a, events, ha⟩ := exists_analyzes_top (w := inEmptyTree) (o := o) rfl rfl
    (scriptPath_of_script rfl rfl checkOutput_cleanScript)
  have haccepts : ¬ RejectsDiagram o := by
    rintro ⟨path, fault, hpath, -⟩
    exact absurd hpath (by simp [o])
  have hwrites := not_failsToWrite_inEmptyTree a
  exact ⟨o, _, _, a, events, hwords, ha, hwrites, haccepts,
    (exit_of_analyzes hwords ha).1.mpr ⟨hwrites, haccepts⟩⟩

def besideFolder : Surroundings where
  tree := .ofEntries [(["clean.sh"], .folder)] (by decide)
  cwd := []
  reply := .missing
  logFilter := none
  now := ⟨0, 0⟩

/-- A run with an analysis does not end with status zero, as it cannot write its script. -/
theorem folder_stops_run : ∃ o p script a events,
    request ["--script", "clean.sh"] = .ok (.run o) ∧
      Analyzes besideFolder o p script a events ∧
      (execute besideFolder ["--script", "clean.sh"]).exit = 1 := by
  let o : Options := { script := some "clean.sh" }
  have hwords : request ["--script", "clean.sh"] = .ok (.run o) := by decide
  obtain ⟨a, events, ha⟩ := exists_analyzes_top (w := besideFolder) (o := o) rfl rfl
    (scriptPath_of_script rfl rfl checkOutput_cleanScript)
  have hfails : FailsToWrite besideFolder (some "clean.sh") a :=
    ⟨"clean.sh", _, rfl, RemovalScript.write_folder (by decide) rfl (by decide) _⟩
  refine ⟨o, _, _, a, events, hwords, ha, ?_⟩
  rw [execute_of_request hwords]
  exact ha.exit_of_fails hfails

theorem Analyzes.tree_of_rejected (h : Analyzes w o p script a events)
    (hf : ¬ FailsToWrite w script a) (hd : RejectsDiagram o) :
    (script = none → (run w o).tree = w.tree) ∧ ∀ path, script = some path →
      RemovalScript.write w.tree w.cwd path (scriptOf w a) = .ok (run w o).tree := by
  obtain ⟨r, hrun, -, hnone, hsome⟩ := h.exists_drawDiagram hf
  rw [hrun, (drawDiagram_of_rejected w _ _ r hd).2]
  exact ⟨hnone, hsome⟩

/-- A rejected path of the script ends a run before it writes anything. One that is ended by the
rejected path of its diagram has written its script, if there is one, and nothing else. -/
theorem tree_of_rejected_path (hwords : request words = .ok (.run o)) :
    (∀ p fault, project? w o = some p → scriptPath o (configOf p).1 = .error fault →
      (execute w words).exit = 1 ∧ (execute w words).tree = w.tree) ∧
    ∀ p script a events, Analyzes w o p script a events → RejectsDiagram o →
      (execute w words).exit = 2 →
        (script = none → (execute w words).tree = w.tree) ∧ ∀ path, script = some path →
          RemovalScript.write w.tree w.cwd path (scriptOf w a) = .ok (execute w words).tree := by
  rw [execute_of_request hwords]
  constructor
  · intro p fault hp hscript
    exact Stops.ending (.rejected hp hscript)
  · intro p script a events ha hd hexit
    have hf : ¬ FailsToWrite w script a := by
      intro hf
      rw [ha.exit_of_fails hf] at hexit
      exact absurd hexit (by decide)
    exact ha.tree_of_rejected hf hd

theorem rejectsDiagram_upwards {o : Options} (h : o.dotFile = some "../g") : RejectsDiagram o :=
  ⟨"../g", .upwards "../g", h, by decide⟩

theorem tree_of_rejected_path_inEmptyTree : ∃ o p a events,
    request ["--no-script", "--dot-file", "../g"] = .ok (.run o) ∧
      Analyzes inEmptyTree o p none a events ∧ RejectsDiagram o ∧
      (execute inEmptyTree ["--no-script", "--dot-file", "../g"]).exit = 2 ∧
      (execute inEmptyTree ["--no-script", "--dot-file", "../g"]).tree = inEmptyTree.tree := by
  let o : Options := { noScript := true, dotFile := some "../g" }
  have hwords : request ["--no-script", "--dot-file", "../g"] = .ok (.run o) := by decide
  have hd : RejectsDiagram o := rejectsDiagram_upwards rfl
  obtain ⟨a, events, ha⟩ := exists_analyzes_top (w := inEmptyTree) (o := o) rfl rfl
    (scriptPath_of_noScript rfl)
  have hexit : (execute inEmptyTree ["--no-script", "--dot-file", "../g"]).exit = 2 := by
    rw [execute_of_request hwords]
    refine ha.exit_of_rejected ?_ hd
    rintro ⟨path, f, hpath, -⟩
    exact absurd hpath (by simp)
  exact ⟨o, _, a, events, hwords, ha, hd, hexit,
    ((tree_of_rejected_path hwords).2 _ _ _ _ ha hd hexit).1 rfl⟩

/-- A run that is ended by the rejected path of its diagram leaves a script behind. -/
theorem rejected_diagram_leaves_script : ∃ o p a events,
    request ["--script", "clean.sh", "--dot-file", "../g"] = .ok (.run o) ∧
      Analyzes inEmptyTree o p (some "clean.sh") a events ∧ RejectsDiagram o ∧
      (execute inEmptyTree ["--script", "clean.sh", "--dot-file", "../g"]).exit = 2 ∧
      inEmptyTree.tree.lookup? ["clean.sh"] = none ∧
      (execute inEmptyTree ["--script", "clean.sh", "--dot-file", "../g"]).tree.lookup?
        ["clean.sh"] = some (.file (encode (scriptOf inEmptyTree a)) true) := by
  let o : Options := { script := some "clean.sh", dotFile := some "../g" }
  have hwords : request ["--script", "clean.sh", "--dot-file", "../g"] = .ok (.run o) := by decide
  have hd : RejectsDiagram o := rejectsDiagram_upwards rfl
  obtain ⟨a, events, ha⟩ := exists_analyzes_top (w := inEmptyTree) (o := o) rfl rfl
    (scriptPath_of_script rfl rfl checkOutput_cleanScript)
  have hf := not_failsToWrite_inEmptyTree a
  obtain ⟨t', hwrites, hlookup⟩ := exists_write_inEmptyTree (scriptOf inEmptyTree a)
  have htree : (run inEmptyTree o).tree = t' := by
    have hleft := (ha.tree_of_rejected hf hd).2 "clean.sh" rfl
    exact Except.ok.inj (hleft.symm.trans hwrites)
  refine ⟨o, _, a, events, hwords, ha, hd, ?_, rfl, ?_⟩
  · rw [execute_of_request hwords, ha.exit_of_rejected hf hd]
  · rw [execute_of_request hwords, htree, hlookup, if_pos rfl]

end UnusedAssets.CommandLine
