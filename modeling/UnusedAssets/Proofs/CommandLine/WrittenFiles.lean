import UnusedAssets.Proofs.CommandLine.Endings
import UnusedAssets.Proofs.CommandLine.OutputPath

/-!
# What a run writes

Of the stages of a run only the script and the diagram change the tree, each at the one location to
which its path leads. Without links that location is told by the text of the path, and an accepted
path tells one below the working directory (`written_files`).
-/

namespace UnusedAssets.CommandLine

open Text FileTree

variable {w : Surroundings} {o : Options} {p : Project} {script : Option String} {a : Analysis}
  {events : List Event} {words : List String} {cwd l : Location} {path : String} {r : Outcome}
  {g : UsageGraph} {json : Bool}

theorem of_checkOutput (h : checkOutput path = .ok ()) :
    Path.isAbsolute (encode path) = false ∧ encode ".." ∉ Path.parts (encode path) := by
  obtain ⟨-, hrelative, hup, -⟩ := checkOutput_eq_ok_iff.mp h
  exact ⟨(Path.isAbsolute_encode path).trans hrelative, mt upwards_mem_parts.mp hup⟩

/-- An accepted path leads downwards by every one of its steps. -/
theorem join_of_checkOutput (h : checkOutput path = .ok ()) :
    Location.join cwd path = cwd ++ (Path.parts (encode path)).filter (· ≠ encode ".") := by
  obtain ⟨habsolute, hup⟩ := of_checkOutput h
  have hfold (steps : List Bytes) (here : Location) (hsteps : encode ".." ∉ steps) :
      steps.foldl Location.after here = here ++ steps.filter (· ≠ encode ".") := by
    induction steps generalizing here with
    | nil => simp
    | cons step steps ih =>
      rw [List.mem_cons, not_or] at hsteps
      obtain ⟨hstep, hsteps⟩ := hsteps
      rw [List.foldl_cons, ih _ hsteps]
      by_cases hdot : step = encode "."
      · simp [Location.after, hdot]
      · simp [Location.after, hdot, Ne.symm hstep]
  rw [Location.join, origin, habsolute, if_neg (by decide)]
  exact hfold _ _ hup

theorem below_of_canWrite {t : FileTree} (ht : t.LinkFree) (hcheck : checkOutput path = .ok ())
    (h : t.CanWrite cwd path l) : ∃ names, names ≠ [] ∧ l = cwd ++ names := by
  refine ⟨(Path.parts (encode path)).filter (· ≠ encode "."), ?_, ?_⟩
  · obtain ⟨-, links, -, hw⟩ := resolveToWrite_eq_ok_iff.mp h.leads
    have hsteps := hw.endsInSlash.2
    have hne := hw.ne_nil
    have hlast := hw.getLast?_ne_dot
    rw [hsteps, List.getLast?_eq_some_getLast (hsteps ▸ hne), ne_eq, Option.some.injEq] at hlast
    refine List.ne_nil_of_mem (List.mem_filter.mpr ⟨List.getLast_mem (hsteps ▸ hne), ?_⟩)
    simpa using hlast
  · rw [ht.canWrite_eq h, join_of_checkOutput hcheck]

/-- The path of the script that was chosen is accepted. -/
theorem of_scriptPath {c : Config} (h : scriptPath o c = .ok (some path)) :
    o.noScript = false ∧ path = (o.script <|> c.scriptName?).getD RemovalScript.defaultName ∧
      checkOutput path = .ok () := by
  unfold scriptPath at h
  split at h
  · exact absurd h (by simp)
  · next hscript =>
    dsimp only at h
    generalize (o.script <|> c.scriptName?).getD RemovalScript.defaultName = chosen at h ⊢
    cases hcheck : checkOutput chosen with
    | error fault =>
      rw [hcheck] at h
      exact absurd h (by simp [Except.map])
    | ok _ =>
      rw [hcheck] at h
      obtain rfl : chosen = path := by simpa [Except.map] using h
      exact ⟨by simpa using hscript, rfl, hcheck⟩

/-- A file is all that may have changed from one tree to another, where its path leads. -/
def WritesOnly (t t' : FileTree) (cwd : Location) (path : String) : Prop :=
  ∃ l, t.CanWrite cwd path l ∧ ∃ content executable, ∀ m,
    t'.lookup? m = if m = l then some (.file content executable) else t.lookup? m

theorem WritesOnly.sameFrame {t t' : FileTree} (h : WritesOnly t t' cwd path) : t.SameFrame t' := by
  obtain ⟨l, hcan, content, executable, hlookup⟩ := h
  exact sameFrame_of_written hcan.place.2.2 ⟨_, _, rfl⟩ hlookup

/-- A stage of a run makes and removes no folder and no link. -/
theorem sameFrame_of_stage {t t' : FileTree} (h : t' = t ∨ ∃ path, WritesOnly t t' cwd path) :
    t.SameFrame t' := by
  rcases h with rfl | ⟨path, hwrites⟩
  · exact .refl t'
  · exact hwrites.sameFrame

theorem WritesOnly.canWrite {t t' : FileTree} (h : WritesOnly t t' cwd path)
    (hl : t'.lookup? l ≠ t.lookup? l) : t.CanWrite cwd path l := by
  obtain ⟨m, hcan, content, executable, hlookup⟩ := h
  by_cases hm : l = m
  · rwa [hm]
  · rw [hlookup, if_neg hm] at hl
    exact absurd rfl hl

theorem drawDiagram_tree : (drawDiagram w o json g r).tree = r.tree ∨
    ∃ path, o.dotFile = some path ∧ checkOutput path = .ok () ∧
      WritesOnly r.tree (drawDiagram w o json g r).tree w.cwd path := by
  cases hdot : o.dotFile with
  | none =>
    simp only [drawDiagram, hdot]
    cases o.dot <;> cases json <;> exact .inl rfl
  | some path =>
    cases hcheck : checkOutput path with
    | error fault => exact .inl (by simp [drawDiagram, hdot, hcheck])
    | ok _ =>
      cases hwrite : r.tree.writeText w.cwd path g.diagram with
      | error fault => exact .inl (by simp [drawDiagram, hdot, hcheck, hwrite])
      | ok tree =>
        obtain ⟨l, hcan, hlookup⟩ := canWrite_of_writeText hwrite
        have htree : (drawDiagram w o json g r).tree = tree := by
          simp [drawDiagram, hdot, hcheck, hwrite]
        exact .inr ⟨path, rfl, hcheck, l, hcan, _, _, htree ▸ hlookup⟩

theorem Analyzes.tree_of_fails (h : Analyzes w o p script a events)
    (hf : FailsToWrite w script a) : (run w o).tree = w.tree := by
  obtain ⟨path, f, rfl, hwrite⟩ := hf
  rw [← presented_tree w o p a events] at hwrite
  rw [h.run_eq, writeFiles_failed _ _ _ _ hwrite, Outcome.fail_tree, presented_tree]

/-- The tree is changed in two stages, by the script and by the diagram. -/
theorem Analyzes.stages (h : Analyzes w o p script a events) : ∃ t,
    (t = w.tree ∨ ∃ path, script = some path ∧ WritesOnly w.tree t w.cwd path) ∧
      ((run w o).tree = t ∨ ∃ path, o.dotFile = some path ∧ checkOutput path = .ok () ∧
        WritesOnly t (run w o).tree w.cwd path) := by
  by_cases hf : FailsToWrite w script a
  · exact ⟨w.tree, .inl rfl, .inl (h.tree_of_fails hf)⟩
  · obtain ⟨r, hrun, -, hnone, hsome⟩ := h.exists_drawDiagram hf
    refine ⟨r.tree, ?_, hrun ▸ drawDiagram_tree⟩
    cases script with
    | none => exact .inl (hnone rfl)
    | some path =>
      obtain ⟨l, hcan, hlookup⟩ := RemovalScript.canWrite_of_write (hsome path rfl)
      exact .inr ⟨path, rfl, l, hcan, _, _, hlookup⟩

/-- A run makes and removes no folder and no link. -/
theorem sameFrame_run (w : Surroundings) (o : Options) : w.tree.SameFrame (run w o).tree := by
  rcases stops_or_analyzes w o with hstops | ⟨p, script, a, events, ha⟩
  · rw [hstops.ending.2]
    exact .refl w.tree
  · obtain ⟨t, hscript, hdiagram⟩ := ha.stages
    have hfirst : w.tree.SameFrame t :=
      sameFrame_of_stage (hscript.imp_right fun ⟨path, _, hwrites⟩ => ⟨path, hwrites⟩)
    have hsecond : t.SameFrame (run w o).tree :=
      sameFrame_of_stage (hdiagram.imp_right fun ⟨path, _, _, hwrites⟩ => ⟨path, hwrites⟩)
    exact hfirst.trans hsecond

/-- Where the tree is another after a run with an analysis, the script or the diagram was written. -/
theorem Analyzes.canWrite (h : Analyzes w o p script a events)
    (hl : (run w o).tree.lookup? l ≠ w.tree.lookup? l) : ∃ path,
      (script = some path ∨ o.dotFile = some path) ∧ checkOutput path = .ok () ∧
        w.tree.CanWrite w.cwd path l := by
  obtain ⟨t, hscript, hdiagram⟩ := h.stages
  by_cases hstage : t.lookup? l = w.tree.lookup? l
  · rcases hdiagram with htree | ⟨path, hpath, hcheck, hwrites⟩
    · rw [htree] at hl
      exact absurd hstage hl
    · have hframe : w.tree.SameFrame t :=
        sameFrame_of_stage (hscript.imp_right fun ⟨path, _, hwrites⟩ => ⟨path, hwrites⟩)
      rw [← hstage] at hl
      exact ⟨path, .inr hpath, hcheck, (hwrites.canWrite hl).congr hframe.symm⟩
  · rcases hscript with rfl | ⟨path, rfl, hwrites⟩
    · exact absurd rfl hstage
    · exact ⟨path, .inl rfl, (of_scriptPath h.accepts).2.2, hwrites.canWrite hstage⟩

/-- A run changes nothing but the file of its script and that of its diagram, each where the text of
its accepted path says; and all accepted paths lead below the working directory. -/
theorem written_files (w : Surroundings) (words : List String) (hlinks : w.tree.LinkFree) :
    (∀ l, (execute w words).tree.lookup? l ≠ w.tree.lookup? l →
      ∃ o p script a events path, request words = .ok (.run o) ∧
        Analyzes w o p script a events ∧
        ((o.noScript = false ∧ script = some path ∧
            path = (o.script <|> (configOf p).1.scriptName?).getD RemovalScript.defaultName) ∨
          o.dotFile = some path) ∧
        checkOutput path = .ok () ∧ l = Location.join w.cwd path ∧
        ∃ names, names ≠ [] ∧ l = w.cwd ++ names) ∧
    ∀ path, checkOutput path = .ok () → w.cwd <+: Location.join w.cwd path := by
  constructor
  · intro l hl
    rw [execute] at hl
    split at hl
    · exact absurd rfl hl
    · exact absurd rfl hl
    · exact absurd rfl hl
    · next o hwords =>
      rcases stops_or_analyzes w o with hstops | ⟨p, script, a, events, ha⟩
      · rw [hstops.ending.2] at hl
        exact absurd rfl hl
      · obtain ⟨path, hpath, hcheck, hcan⟩ := ha.canWrite hl
        refine ⟨o, p, script, a, events, path, hwords, ha, hpath.imp_left ?_, hcheck,
          hlinks.canWrite_eq hcan, below_of_canWrite hlinks hcheck hcan⟩
        intro hscript
        obtain ⟨hwrites, hchosen, -⟩ := of_scriptPath (hscript ▸ ha.accepts)
        exact ⟨hwrites, hscript, hchosen⟩
  · intro path hcheck
    rw [join_of_checkOutput hcheck]
    exact List.prefix_append _ _

theorem written_files_inEmptyTree : inEmptyTree.tree.LinkFree ∧
    (execute inEmptyTree ["--script", "clean.sh"]).tree.lookup? ["clean.sh"] ≠
      inEmptyTree.tree.lookup? ["clean.sh"] ∧
    (∃ o p script a events path, request ["--script", "clean.sh"] = .ok (.run o) ∧
      Analyzes inEmptyTree o p script a events ∧ checkOutput path = .ok () ∧
      [encode "clean.sh"] = Location.join inEmptyTree.cwd path) ∧
    checkOutput "clean.sh" = .ok () ∧
      inEmptyTree.cwd <+: Location.join inEmptyTree.cwd "clean.sh" := by
  let o : Options := { script := some "clean.sh" }
  have hwords : request ["--script", "clean.sh"] = .ok (.run o) := by decide
  have hlinks : inEmptyTree.tree.LinkFree := .of_entries fun x hx => absurd hx List.not_mem_nil
  obtain ⟨a, events, ha⟩ := exists_analyzes_top (w := inEmptyTree) (o := o) rfl rfl
    (scriptPath_of_script rfl rfl checkOutput_cleanScript)
  have hchanged : (execute inEmptyTree ["--script", "clean.sh"]).tree.lookup? ["clean.sh"] ≠
      inEmptyTree.tree.lookup? ["clean.sh"] := by
    obtain ⟨r, hrun, -, -, hsome⟩ := ha.exists_drawDiagram (not_failsToWrite_inEmptyTree a)
    obtain ⟨t', hwrites, hlookup⟩ := exists_write_inEmptyTree (scriptOf inEmptyTree a)
    obtain rfl := Except.ok.inj (hwrites.symm.trans (hsome _ rfl))
    have htree : (run inEmptyTree o).tree = r.tree := by
      rw [hrun]
      rfl
    rw [execute_of_request hwords, htree, hlookup, if_pos rfl]
    exact Option.some_ne_none _
  obtain ⟨hfiles, hbelow⟩ := written_files inEmptyTree ["--script", "clean.sh"] hlinks
  obtain ⟨o', p, script, a', events', path, hwords', ha', -, hcheck, hjoin, -⟩ :=
    hfiles _ hchanged
  exact ⟨hlinks, hchanged, ⟨o', p, script, a', events', path, hwords', ha', hcheck, hjoin⟩,
    checkOutput_cleanScript, hbelow _ checkOutput_cleanScript⟩

end UnusedAssets.CommandLine
