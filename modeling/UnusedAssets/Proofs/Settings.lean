import UnusedAssets.Config
import UnusedAssets.Proofs.Removal.Exactness
import UnusedAssets.Proofs.Survey.Excludes

/-!
# What settings do to an analysis

Settings are put together from choices, some of them in a configuration. Only which exclusions and
which patterns they hold matters (`Project.analyze_of_same_entries`). The patterns divide the unused
candidates between the two lists of a result, and more patterns move paths from one to the other
(`analysis_of_choices`).
-/

namespace UnusedAssets

open Text FileTree Candidate

inductive Choice where
  | excluding (beginnings : List String)
  | ignoring (patterns : List String)
  | configured (c : Config)

namespace Choice

variable {choices choices' : List Choice} {more : List String} {x path : String}

def settings : Choice → Settings
  | .excluding beginnings => { excludes := beginnings }
  | .ignoring patterns => { ignores := patterns }
  | .configured c => c.settings

/-- All choices together, in the order in which they are made. -/
def all (choices : List Choice) : Settings :=
  choices.foldl (fun s choice => s ++ choice.settings) {}

/-- A field for which putting together is appending gathers what the choices have for it. -/
theorem foldl_append (field : Settings → List String)
    (h : ∀ s s', field (s ++ s') = field s ++ field s') {s : Settings} :
    field (choices.foldl (fun s choice => s ++ choice.settings) s) =
      field s ++ choices.flatMap fun choice => field choice.settings := by
  induction choices generalizing s with
  | nil => simp
  | cons choice choices ih =>
    rw [List.foldl_cons, ih, h, List.flatMap_cons, List.append_assoc]

@[simp] theorem excludes_all : (all choices).excludes = choices.flatMap (·.settings.excludes) :=
  foldl_append Settings.excludes fun _ _ => rfl

@[simp] theorem ignores_all : (all choices).ignores = choices.flatMap (·.settings.ignores) :=
  foldl_append Settings.ignores fun _ _ => rfl

/-- The choices of a command line, after those of a configuration. -/
theorem all_of_options (c : Config) (excludes ignores : List String) :
    all [.configured c, .excluding excludes, .ignoring ignores] =
      c.settings ++ ⟨excludes, ignores⟩ := by
  have hparts {s : Settings} {es is : List String} (he : s.excludes = es) (hi : s.ignores = is) :
      s = ⟨es, is⟩ := by rw [← he, ← hi]
  exact hparts (by simp [settings]) (by simp [settings])

/-- The same exclusions and the same patterns are among some choices, in whatever order, however
often and in whichever of them. -/
structure SameEntries (choices choices' : List Choice) : Prop where
  excludes : ∀ x, (∃ choice ∈ choices, x ∈ choice.settings.excludes) ↔
    ∃ choice ∈ choices', x ∈ choice.settings.excludes
  ignores : ∀ x, (∃ choice ∈ choices, x ∈ choice.settings.ignores) ↔
    ∃ choice ∈ choices', x ∈ choice.settings.ignores

theorem SameEntries.mem_excludes_iff (h : SameEntries choices choices') :
    x ∈ (all choices).excludes ↔ x ∈ (all choices').excludes := by
  rw [excludes_all, excludes_all, List.mem_flatMap, List.mem_flatMap]
  exact h.excludes x

theorem SameEntries.mem_ignores_iff (h : SameEntries choices choices') :
    x ∈ (all choices).ignores ↔ x ∈ (all choices').ignores := by
  rw [ignores_all, ignores_all, List.mem_flatMap, List.mem_flatMap]
  exact h.ignores x

theorem SameEntries.isIgnored_eq (h : SameEntries choices choices') :
    (all choices).isIgnored = (all choices').isIgnored := by
  funext path
  rw [Bool.eq_iff_iff, Settings.isIgnored, Settings.isIgnored, List.any_eq_true,
    List.any_eq_true]
  simp only [h.mem_ignores_iff]

theorem isIgnored_ignoring :
    (all (choices ++ [.ignoring more])).isIgnored path =
      ((all choices).isIgnored path || more.any fun pattern => isIgnoredBy pattern path) := by
  simp [Settings.isIgnored, settings]

end Choice

namespace Project

variable {p : Project} {choices choices' : List Choice} {a : Analysis} {events : List Event}

theorem analyze_of_same_entries (h : Choice.SameEntries choices choices') :
    p.analyze (Choice.all choices) = p.analyze (Choice.all choices') := by
  have hexcludes (e : String) : e ∈ excludesWith (Choice.all choices).excludes ↔
      e ∈ excludesWith (Choice.all choices').excludes := by
    rw [mem_excludesWith_iff, mem_excludesWith_iff, contributed, contributed]
    simp only [List.mem_filterMap, h.mem_excludes_iff]
  have hrun : (p.survey (Choice.all choices)).run ∅ = (p.survey (Choice.all choices')).run ∅ :=
    Survey.run_of_same_excludes hexcludes
  have htrace : p.trace (Choice.all choices) = p.trace (Choice.all choices') := by
    rw [trace, trace, hrun]
  rw [analyze, analyze, htrace, h.isIgnored_eq]

theorem phases_of_analyze {s : Settings} (h : p.analyze s = .ok (a, events)) :
    a.phases = ((p.survey s).run ∅).stats := by
  have hf := isFolder_of_analyze h
  simp only [analyze, trace, hf, ↓reduceIte, Except.ok.injEq, Prod.mk.injEq] at h
  rw [← h.1]

/-- Every candidate is used, reported or ignored. -/
theorem totalCandidates_of_analyze {s : Settings} (h : p.analyze s = .ok (a, events)) :
    a.totalCandidates = a.unused.length + a.ignored.length +
      (a.graph.candidates.filter a.graph.used.contains).size := by
  have hunused := List.length_eq_length_filter_add (l := a.graph.unused) s.isIgnored
  have hall := List.length_eq_length_filter_add (l := a.graph.candidates.toList)
    a.graph.used.contains
  rw [(counts_of_analyze h).1, unused_of_analyze h, ignored_of_analyze h]
  simp only [OrderedSet.size, OrderedSet.filter]
  rw [UsageGraph.unused] at hunused ⊢
  omega

/-- More patterns leave what was found as it was and move the paths that they cover. -/
theorem analyze_of_more_patterns (h : p.analyze (Choice.all choices) = .ok (a, events))
    (more : List String) : ∃ a' events',
      p.analyze (Choice.all (choices ++ [.ignoring more])) = .ok (a', events') ∧
        a'.graph = a.graph ∧ a'.phases = a.phases ∧
        a'.unused = a.unused.filter (fun path => !more.any fun pattern => isIgnoredBy pattern path) ∧
        ∀ path, path ∈ a'.ignored ↔
          path ∈ a.ignored ∨ path ∈ a.unused ∧ ∃ pattern ∈ more, isIgnoredBy pattern path = true := by
  obtain ⟨a', events', h'⟩ :=
    exists_analyze (s := Choice.all (choices ++ [.ignoring more])) (isFolder_of_analyze h)
  have hexcludes : (Choice.all (choices ++ [.ignoring more])).excludes =
      (Choice.all choices).excludes := by
    simp [Choice.settings]
  have hrun : (p.survey (Choice.all (choices ++ [.ignoring more]))).run ∅ =
      (p.survey (Choice.all choices)).run ∅ := by
    rw [survey, survey, hexcludes]
  have hgraph : a'.graph = a.graph := by
    rw [graph_of_analyze h', graph_of_analyze h, hrun]
  refine ⟨a', events', h', hgraph, ?_, ?_, fun path => ?_⟩
  · rw [phases_of_analyze h', phases_of_analyze h, hrun]
  · rw [unused_of_analyze h', unused_of_analyze h, hgraph, List.filter_filter]
    refine List.filter_congr fun path _ => ?_
    rw [Choice.isIgnored_ignoring, Bool.not_or, Bool.and_comm]
  · rw [mem_ignored h', mem_ignored h, mem_unused h, hgraph, Choice.isIgnored_ignoring,
      Bool.or_eq_true, List.any_eq_true]
    cases (Choice.all choices).isIgnored path <;> simp [and_assoc]

/-- The unused candidates of an analysis are divided between its two lists, more patterns only move
them from one to the other, and the same entries among other choices have the same result. -/
theorem analysis_of_choices (p : Project) (choices : List Choice)
    (h : p.analyze (Choice.all choices) = .ok (a, events)) :
    (a.unused.map encode).Pairwise (· < ·) ∧ (a.ignored.map encode).Pairwise (· < ·) ∧
    (∀ path ∈ a.unused, path ∉ a.ignored) ∧
    (∀ path, path ∈ a.unused ∨ path ∈ a.ignored ↔
      path ∈ a.graph.candidates ∧ path ∉ a.graph.used) ∧
    a.totalCandidates = a.unused.length + a.ignored.length +
      (a.graph.candidates.filter a.graph.used.contains).size ∧
    (∀ more, ∃ a' events',
      p.analyze (Choice.all (choices ++ [.ignoring more])) = .ok (a', events') ∧
        a'.graph = a.graph ∧ a'.phases = a.phases ∧
        a'.unused = a.unused.filter (fun path => !more.any fun pattern => isIgnoredBy pattern path) ∧
        ∀ path, path ∈ a'.ignored ↔ path ∈ a.ignored ∨
          path ∈ a.unused ∧ ∃ pattern ∈ more, isIgnoredBy pattern path = true) ∧
    ∀ choices', Choice.SameEntries choices choices' →
      p.analyze (Choice.all choices') = .ok (a, events) := by
  have hascending (f : String → Bool) : ((a.graph.unused.filter f).map encode).Pairwise (· < ·) := by
    rw [List.pairwise_map]
    exact (((a.graph.candidates.ascending.filter _).filter _).imp encode_lt_encode)
  refine ⟨?_, ?_, ?_, ?_, totalCandidates_of_analyze h, analyze_of_more_patterns h, ?_⟩
  · exact unused_of_analyze h ▸ hascending _
  · exact ignored_of_analyze h ▸ hascending _
  · intro path hunused hignored
    rw [mem_unused h] at hunused
    rw [mem_ignored h] at hignored
    exact absurd hignored.2.2 (by simp [hunused.2.2])
  · intro path
    rw [mem_unused h, mem_ignored h]
    cases (Choice.all choices).isIgnored path <;> simp
  · intro choices' hsame
    rw [← analyze_of_same_entries hsame, h]

def chosenOnce : List Choice :=
  [.configured { ignore := some ["notes.*", "build/*"], exclude := some ["./docs"] }]

/-- The same choices, some of them made apart from the configuration and more than once. -/
def chosenApart : List Choice :=
  [.excluding ["./docs"], .ignoring ["build/*"],
    .configured { ignore := some ["notes.*"], exclude := some ["./docs"] },
    .ignoring ["notes.*", "notes.*"]]

theorem sameEntries_chosen : Choice.SameEntries chosenOnce chosenApart := by
  constructor <;> intro x <;>
    simp [chosenOnce, chosenApart, Choice.settings, Config.settings, or_comm]

theorem analysis_of_choices_site : ∃ a events,
    linkedSite.analyze (Choice.all chosenOnce) = .ok (a, events) ∧ DividesSite a ∧
      (∃ a' events', linkedSite.analyze (Choice.all (chosenOnce ++ [.ignoring ["*.css"]])) =
        .ok (a', events') ∧ a'.graph = a.graph ∧ "old.css" ∉ a'.unused ∧ "old.css" ∈ a'.ignored) ∧
      Choice.SameEntries chosenOnce chosenApart ∧
        linkedSite.analyze (Choice.all chosenApart) = .ok (a, events) := by
  have hsettings : Choice.all chosenOnce = siteSettings := rfl
  obtain ⟨a, events, ha⟩ :=
    exists_analyze (p := linkedSite) (s := Choice.all chosenOnce) (isFolder_top _ _)
  obtain ⟨-, -, -, -, -, hmore, hsame⟩ := analysis_of_choices linkedSite chosenOnce ha
  have hdivides : DividesSite a := dividesSite (hsettings ▸ ha)
  have hcovered : isIgnoredBy "*.css" "old.css" = true := by decide
  obtain ⟨a', events', ha', hgraph, -, hunused', hignored'⟩ := hmore ["*.css"]
  refine ⟨a, events, ha, hdivides, ⟨a', events', ha', hgraph, ?_, ?_⟩, sameEntries_chosen,
    hsame _ sameEntries_chosen⟩
  · simp [hunused', hcovered]
  · exact (hignored' _).mpr (.inr ⟨hdivides.old, "*.css", by simp, hcovered⟩)

end Project

end UnusedAssets
