import UnusedAssets.Proofs.CommandLine.Run
import UnusedAssets.Proofs.FileTree.Destination

/-!
# Runs that come out alike

Two runs come out alike that end with the same status and output and write the same files, up to the
line of a script that says when it was made. Each stage keeps this (`Alike.drawDiagram`,
`Alike.writeFiles`), so two runs come out alike whose trees have the same folders and links, whose
configurations are the same and whose analyses have the same result (`alike_of_sameFindings`).
-/

namespace UnusedAssets

open Text FileTree

namespace RemovalScript

/-- Two texts are the same, or differ in nothing but when a script was made. -/
def SameUpToStamp (s s' : String) : Prop :=
  s = s' ∨ ∃ before made made' after,
    s = before ++ stampLine made ++ after ∧ s' = before ++ stampLine made' ++ after

theorem SameUpToStamp.append {s s' : String} (h : SameUpToStamp s s') (t : String) :
    SameUpToStamp (s ++ t) (s' ++ t) := by
  rcases h with rfl | ⟨before, made, made', after, rfl, rfl⟩
  · exact .inl rfl
  · exact .inr ⟨before, made, made', after ++ t, String.append_assoc, String.append_assoc⟩

theorem sameUpToStamp_header (made made' : Timestamp) :
    SameUpToStamp (header (some made)) (header (some made')) :=
  .inr ⟨_, made, made', "", String.append_empty.symm, String.append_empty.symm⟩

/-- Behind the header a script does not depend on when it was made. -/
theorem sameUpToStamp_text (root : String) (commands : List RemovalCommand)
    (made made' : Timestamp) :
    SameUpToStamp (text root commands (some made)) (text root commands (some made')) := by
  rw [text, text]
  iterate 12 refine .append ?_ _
  exact sameUpToStamp_header made made'

end RemovalScript

namespace CommandLine

open RemovalScript

/-- The same was written into two trees: at each location nothing was written into either, or files
were left in both whose texts are the same up to when a script was made. -/
def SameWritten (t t' u u' : FileTree) : Prop :=
  ∀ l, (u.lookup? l = t.lookup? l ∧ u'.lookup? l = t'.lookup? l) ∨
    ∃ s s' executable executable', SameUpToStamp s s' ∧
      u.lookup? l = some (.file (encode s) executable) ∧
      u'.lookup? l = some (.file (encode s') executable')

/-- Two runs, from the trees `t` and `t'`, came out alike. -/
structure Alike (t t' : FileTree) (r r' : Outcome) : Prop where
  exit : r.exit = r'.exit
  output : r.output = r'.output
  files : SameWritten t t' r.tree r'.tree

variable {w w' : Surroundings} {o : Options} {p p' : Project} {script : Option String}
  {a : Analysis} {events events' : List Event} {t t' u u' v v' : FileTree} {r r' : Outcome}
  {l cwd : Location} {s s' path : String} {json executable executable' : Bool} {g : UsageGraph}
  {commands : List RemovalCommand}

namespace SameWritten

theorem refl (t t' : FileTree) : SameWritten t t' t t' := fun _ => .inl ⟨rfl, rfl⟩

/-- Two trees that had the same folders and links still have. -/
theorem sameFrame (h : SameWritten t t' u u') (hframe : t.SameFrame t') : u.SameFrame u' := by
  intro l e he
  rcases h l with ⟨hu, hu'⟩ | ⟨s, s', executable, executable', -, hu, hu'⟩
  · rw [hu, hu']
    exact hframe l e he
  · rw [hu, hu', Option.some.injEq, Option.some.injEq]
    exact iff_of_false (he _ _).symm (he _ _).symm

theorem write (h : SameWritten t t' u u') (hsame : SameUpToStamp s s')
    (hv : ∀ m, v.lookup? m = if m = l then some (.file (encode s) executable) else u.lookup? m)
    (hv' : ∀ m, v'.lookup? m =
      if m = l then some (.file (encode s') executable') else u'.lookup? m) :
    SameWritten t t' v v' := by
  intro m
  rw [hv, hv']
  by_cases hm : m = l
  · rw [if_pos hm, if_pos hm]
    exact .inr ⟨s, s', executable, executable', hsame, rfl, rfl⟩
  · rw [if_neg hm, if_neg hm]
    exact h m

end SameWritten

namespace Alike

theorem say (h : Alike t t' r r') (s : String) : Alike t t' (r.say s) (r'.say s) :=
  ⟨h.exit, congrArg (· ++ s) h.output, h.files⟩

theorem note (h : Alike t t' r r') (s s' : String) : Alike t t' (r.note s) (r'.note s') :=
  ⟨h.exit, h.output, h.files⟩

theorem report (h : Alike t t' r r') : Alike t t' (r.report w o events) (r'.report w' o events') :=
  ⟨h.exit, h.output, h.files⟩

theorem fail (h : Alike t t' r r') (s s' : String) : Alike t t' (r.fail s) (r'.fail s') :=
  ⟨rfl, h.output, h.files⟩

/-- A diagram is written in both runs or in neither. -/
theorem drawDiagram (h : Alike t t' r r') (hframe : t.SameFrame t') (hcwd : w'.cwd = w.cwd) :
    Alike t t' (drawDiagram w o json g r) (drawDiagram w' o json g r') := by
  rw [CommandLine.drawDiagram, CommandLine.drawDiagram, hcwd]
  split
  · next path _ =>
    split
    · exact ⟨rfl, h.output, h.files⟩
    · have hnow := h.files.sameFrame hframe
      by_cases hcan : ∃ l, r.tree.CanWrite w.cwd path l
      · obtain ⟨l, hcan⟩ := hcan
        obtain ⟨v, hv, hlookup⟩ := hcan.exists_writeText g.diagram
        obtain ⟨v', hv', hlookup'⟩ := (hcan.congr hnow).exists_writeText g.diagram
        rw [hv, hv']
        exact ⟨h.exit, h.output, h.files.write (.inl rfl) hlookup hlookup'⟩
      · have hcan' : ∀ l, ¬ r'.tree.CanWrite w.cwd path l := fun l hl =>
          hcan ⟨l, (canWrite_congr hnow).mpr hl⟩
        obtain ⟨fault, hfault⟩ := exists_writeText_error (not_exists.mp hcan) g.diagram
        obtain ⟨fault', hfault'⟩ := exists_writeText_error hcan' g.diagram
        rw [hfault, hfault']
        exact h.report
  · cases o.dot with
    | false => exact h
    | true =>
      cases json with
      | false => exact h.say _
      | true => exact h.note _ _

/-- A script is written in both runs or in neither, and so is a diagram. -/
theorem writeFiles (h : Alike t t' r r') (hframe : t.SameFrame t') (hcwd : w'.cwd = w.cwd) :
    Alike t t' (writeFiles w o json script a commands r)
      (writeFiles w' o json script a commands r') := by
  cases script with
  | none => exact h.drawDiagram hframe hcwd
  | some path =>
    have hnow := h.files.sameFrame hframe
    have hsame := sameUpToStamp_text a.root commands w.now w'.now
    by_cases hcan : ∃ l, r.tree.CanWrite w.cwd path l
    · obtain ⟨l, hcan⟩ := hcan
      obtain ⟨v, hv, hlookup⟩ := exists_write_of_canWrite hcan
        (RemovalScript.text a.root commands (some w.now))
      obtain ⟨v', hv', hlookup'⟩ := exists_write_of_canWrite (hcan.congr hnow)
        (RemovalScript.text a.root commands (some w'.now))
      have hsaved : Alike t t' { r with tree := v } { r' with tree := v' } :=
        ⟨h.exit, h.output, h.files.write hsame hlookup hlookup'⟩
      rw [← hcwd] at hv'
      rw [writeFiles_saved w o json commands hv, writeFiles_saved w' o json commands hv']
      refine Alike.drawDiagram ?_ hframe hcwd
      cases json with
      | false => exact hsaved.report.say _
      | true => exact hsaved.report.note _ _
    · have hcan' : ∀ l, ¬ r'.tree.CanWrite w'.cwd path l := fun l hl =>
        hcan ⟨l, hcwd ▸ (canWrite_congr hnow).mpr hl⟩
      obtain ⟨f, hf⟩ := exists_write_error (not_exists.mp hcan)
        (RemovalScript.text a.root commands (some w.now))
      obtain ⟨f', hf'⟩ := exists_write_error hcan'
        (RemovalScript.text a.root commands (some w'.now))
      rw [writeFiles_failed w o json commands hf, writeFiles_failed w' o json commands hf']
      exact h.fail _ _

theorem present (h : Alike t t' r r') :
    Alike t t' (present w o json a commands r) (present w' o json a commands r') := by
  have hreport : Alike t t' (r.report w o w.reply.events) (r'.report w' o w'.reply.events) :=
    h.report
  rw [CommandLine.present, CommandLine.present]
  cases json with
  | false =>
    cases o.explain with
    | none => exact hreport.say _
    | some target => exact (hreport.say _).note _ _
  | true =>
    cases o.explain with
    | none => exact hreport.say _
    | some target => exact (hreport.say _).note _ _

end Alike

/-- Two runs find the same: the same project, with the same configuration and the same result of its
analysis, in trees with the same folders and links. -/
structure SameFindings (w w' : Surroundings) (o : Options) (p p' : Project) : Prop where
  cwd : w'.cwd = w.cwd
  reply : w'.reply = w.reply
  frame : w.tree.SameFrame w'.tree
  found : project? w o = some p
  found' : project? w' o = some p'
  root : p'.root = p.root
  config : (configOf p').1 = (configOf p).1
  results : ∀ s, (p'.analyze s).map (·.1) = (p.analyze s).map (·.1)

theorem alike_configured (w w' : Surroundings) (p p' : Project) :
    Alike w.tree w'.tree (configured w p) (configured w' p') := by
  refine ⟨?_, ?_, ?_⟩
  · rw [configured_exit, configured_exit]
  · rw [configured_output, configured_output]
  · rw [configured_tree, configured_tree]
    exact .refl _ _

theorem alike_opening (hroot : p'.root = p.root) (hconfig : (configOf p').1 = (configOf p).1) :
    Alike w.tree w'.tree (opening w o p) (opening w' o p') := by
  have hconfigured := alike_configured w w' p p'
  rw [opening, opening, choosesJson, choosesJson, hconfig, Project.rootText, Project.rootText,
    hroot]
  split
  · exact hconfigured
  · exact hconfigured.say _

/-- Two runs that find the same come out alike. -/
theorem alike_of_sameFindings (h : SameFindings w w' o p p') :
    Alike w.tree w'.tree (run w o) (run w' o) := by
  have hopening : Alike w.tree w'.tree (opening w o p) (opening w' o p') :=
    alike_opening h.root h.config
  have hresults : (p'.analyze (settingsFor o p')).map (·.1) =
      (p.analyze (settingsFor o p)).map (·.1) := by
    rw [settingsFor, settingsFor, h.config, h.results]
  rw [run_of_project h.found, run_of_project h.found', h.config, Project.rootText,
    Project.rootText, h.root]
  cases scriptPath o (configOf p).1 with
  | error fault => exact (alike_configured w w' p p').fail _ _
  | ok script =>
    cases ha : p.analyze (settingsFor o p) with
    | error f =>
      cases ha' : p'.analyze (settingsFor o p') with
      | error f' => exact hopening.fail _ _
      | ok result' =>
        rw [ha, ha'] at hresults
        exact absurd hresults (by simp [Except.map])
    | ok result =>
      cases ha' : p'.analyze (settingsFor o p') with
      | error f' =>
        rw [ha, ha'] at hresults
        exact absurd hresults (by simp [Except.map])
      | ok result' =>
        obtain ⟨a, events⟩ := result
        obtain ⟨a', events'⟩ := result'
        obtain rfl : a' = a := by
          rw [ha, ha'] at hresults
          exact Except.ok.inj hresults
        have hjson : choosesJson o p' = choosesJson o p := by
          rw [choosesJson, choosesJson, h.config]
        simp only [hjson, h.reply]
        refine Alike.writeFiles ?_ h.frame h.cwd
        rw [presented, presented, hjson, h.reply]
        exact hopening.report.present

/-- Two runs without a project come out alike. -/
theorem alike_of_noProject (h : project? w o = none) (h' : project? w' o = none) :
    Alike w.tree w'.tree (run w o) (run w' o) := by
  rw [run_of_noProject h, run_of_noProject h']
  exact ⟨rfl, rfl, .refl _ _⟩

/-- Two programs come out alike whose runs do, where their words ask for one. -/
theorem alike_execute (w w' : Surroundings) (words : List String)
    (h : ∀ o, request words = .ok (.run o) → Alike w.tree w'.tree (run w o) (run w' o)) :
    Alike w.tree w'.tree (execute w words) (execute w' words) := by
  rw [execute, execute]
  split
  · exact ⟨rfl, rfl, .refl _ _⟩
  · exact ⟨rfl, rfl, .refl _ _⟩
  · exact ⟨rfl, rfl, .refl _ _⟩
  · next o hwords => exact h o hwords

end CommandLine

end UnusedAssets
