import UnusedAssets.Proofs.CommandLine.Run
import UnusedAssets.Proofs.Config.LetterCase
import UnusedAssets.Proofs.Removal.Exactness
import UnusedAssets.Proofs.Report.JsonReader

/-!
# The output of a run with a JSON report

Where JSON is chosen the output is for programs: nothing, or one document and a line end. Whatever
else is asked for goes elsewhere, and whatever fails adds nothing (`output_of_json`).
-/

namespace UnusedAssets.CommandLine

open Text FileTree

/-- Whether a text is a word of small letters, any of them written as capitals. -/
def Spells (s word : String) : Prop :=
  List.Forall₂ (fun c d => c = d ∨ c = d.toUpper) s.toList word.toList

/-- Whether JSON is chosen: by the options, or by the configuration of the project. -/
def SelectsJson (w : Surroundings) (o : Options) : Prop :=
  o.json = true ∨ ∃ p f, project? w o = some p ∧ (configOf p).1.format? = some f ∧ Spells f "json"

variable {w : Surroundings} {o : Options} {p : Project} {script : Option String} {a : Analysis}
  {events : List Event} {words : List String}

theorem wantsJson_of_spells {c : Config} {f : String} (hf : c.format? = some f)
    (h : Spells f "json") : c.wantsJson = true := by
  have hlower : Config.lowercase f = "json" := (Config.lowercase_eq_iff rfl).mpr h
  rw [Config.wantsJson, hf]
  exact Config.equalsUpToCase_iff.mpr (hlower.trans rfl)

theorem choosesJson_of_selectsJson (h : SelectsJson w o) (hp : project? w o = some p) :
    choosesJson o p = true := by
  rcases h with hjson | ⟨p', f, hp', hf, hspells⟩
  · rw [choosesJson, hjson, Bool.true_or]
  · obtain rfl := Option.some.inj (hp.symm.trans hp')
    rw [choosesJson, wantsJson_of_spells hf hspells, Bool.or_true]

theorem Stops.output (h : Stops w o) (hjson : SelectsJson w o) : (run w o).output = "" := by
  cases h with
  | noProject missing => rw [run_of_noProject missing, Outcome.fail_output]
  | rejected found rejects =>
    rw [run_of_rejected found rejects, Outcome.fail_output, configured_output]
  | failed found accepts fails =>
    rw [run_of_failed found accepts fails, Outcome.failBecause_output,
      opening_output _ _ _ (choosesJson_of_selectsJson hjson found)]

theorem Analyzes.output (h : Analyzes w o p script a events) (hjson : SelectsJson w o) :
    (run w o).output = (Report.document a (a.removalCommands w.reply)).pretty ++ "\n" := by
  have hchosen := choosesJson_of_selectsJson hjson h.found
  rw [h.run_eq, hchosen, writeFiles_output, presented_output _ _ _ _ _ hchosen]

/-- The output tells how many candidates and used files there are. -/
theorem Analyzes.counts_of_output {w' : Surroundings} {o' : Options} {p' : Project}
    {script' : Option String} {a' : Analysis} {events' : List Event}
    (h : Analyzes w o p script a events) (hjson : SelectsJson w o)
    (h' : Analyzes w' o' p' script' a' events') (hjson' : SelectsJson w' o')
    (houtput : (run w o).output = (run w' o').output) :
    a.totalCandidates = a'.totalCandidates ∧ a.usedCount = a'.usedCount := by
  rw [h.output hjson, h'.output hjson', String.append_left_inj] at houtput
  have hread := congrArg JsonText.read houtput
  rw [JsonText.read_pretty, JsonText.read_pretty, Option.some.injEq] at hread
  simp only [Report.document, Json.object.injEq, List.cons.injEq, Prod.mk.injEq,
    Json.count.injEq] at hread
  exact ⟨hread.2.2.1.2, hread.2.2.2.2.2.1.2⟩

/-- Where JSON is chosen, the output is empty exactly if the run stops before it has an analysis,
and else the report as one document, with a line end. -/
theorem output_of_json (hwords : request words = .ok (.run o)) (hjson : SelectsJson w o) :
    ((execute w words).output = "" ↔ Stops w o) ∧
      ((execute w words).output = "" ∨ ∃ p script a events text,
        Analyzes w o p script a events ∧ (execute w words).output = text ++ "\n" ∧
        text = (Report.document a (a.removalCommands w.reply)).pretty ∧
        JsonText.read text = some (Report.document a (a.removalCommands w.reply))) := by
  rw [execute_of_request hwords]
  rcases stops_or_analyzes w o with hstops | ⟨p, script, a, events, ha⟩
  · have hempty := hstops.output hjson
    exact ⟨iff_of_true hempty hstops, .inl hempty⟩
  · have houtput := ha.output hjson
    have hnonempty : (run w o).output ≠ "" := by
      rw [houtput]
      simp
    exact ⟨iff_of_false hnonempty ha.not_stops,
      .inr ⟨p, script, a, events, _, ha, houtput, rfl, JsonText.read_pretty _⟩⟩

def besideSite : Surroundings := ⟨Project.linkedSite.tree, [], .missing, none, ⟨0, 0⟩⟩

def siteWords : List String :=
  ["--exclude", "./docs", "--ignore", "notes.*", "--ignore", "build/*"]

def siteOptions : Options := { exclude := ["./docs"], ignore := ["notes.*", "build/*"] }

/-- Beside the site these words come to the settings of the site. -/
theorem Analyzes.dividesSite {o : Options} {script : Option String} {a : Analysis}
    {events : List Event} (h : Analyzes besideSite o ⟨besideSite.tree, [], "/"⟩ script a events)
    (hexclude : o.exclude = siteOptions.exclude) (hignore : o.ignore = siteOptions.ignore) :
    Project.DividesSite a := by
  have hsettings : settingsFor o ⟨besideSite.tree, [], "/"⟩ = Project.siteSettings := by
    rw [settingsFor, configOf_of_absent (by decide), hexclude, hignore]
    rfl
  exact Project.dividesSite (hsettings ▸ h.analyzes)

theorem output_of_json_besideSite : ∃ o p script a events text,
    request (siteWords ++ ["--json", "--no-script", "--dot-file", "../g"]) = .ok (.run o) ∧
      SelectsJson besideSite o ∧ Analyzes besideSite o p script a events ∧
      Project.DividesSite a ∧
      (execute besideSite (siteWords ++ ["--json", "--no-script", "--dot-file", "../g"])).output =
        text ++ "\n" ∧
      JsonText.read text = some (Report.document a (a.removalCommands .missing)) := by
  let o : Options := { siteOptions with json := true, noScript := true, dotFile := some "../g" }
  have hwords : request (siteWords ++ ["--json", "--no-script", "--dot-file", "../g"]) =
      .ok (.run o) := by decide
  have hjson : SelectsJson besideSite o := .inl rfl
  obtain ⟨hempty, hdocument⟩ := output_of_json (w := besideSite) hwords hjson
  obtain ⟨a, events, ha⟩ := exists_analyzes_top (w := besideSite) (o := o) rfl rfl
    (scriptPath_of_noScript rfl)
  rcases hdocument with hnone | ⟨p, script, a, events, text, hfound, houtput, -, hread⟩
  · exact absurd (hempty.mp hnone) ha.not_stops
  · obtain rfl := Option.some.inj (ha.found.symm.trans hfound.found)
    exact ⟨o, _, script, a, events, text, hwords, hjson, hfound, hfound.dividesSite rfl rfl, houtput,
      hread⟩

end UnusedAssets.CommandLine
