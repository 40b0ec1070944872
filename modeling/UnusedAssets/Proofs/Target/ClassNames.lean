import UnusedAssets.Proofs.Text.Affix
import UnusedAssets.Proofs.Text.Runs
import UnusedAssets.Target

/-!
# Class names and their files

A class name is made of segments with backslashes between them. Which file an import names is a matter
of its segments alone (`classPath?_eq_classFile?`). A controller of a route can be written in full or
from the controllers' namespace on, and an import of it names the same file (`target_of_controller`).
Whether a name is written in full is read off its beginning and not off its segments, so two names of
a controller with the same segments name the same file exactly if both of them begin so or neither
does (`paths_of_segments`).
-/

namespace UnusedAssets.Layout

open Text

variable {a b className inner s token : String}

/-- The parts of a class name between backslashes that are not empty. -/
def segments (className : String) : List String := (split className '\\').filter (· ≠ "")

theorem nestedPath_eq (className : String) :
    nestedPath className = joinWith "/" (segments className) := rfl

theorem ne_empty_of_mem_segments (h : s ∈ segments className) : s ≠ "" :=
  of_decide_eq_true (List.mem_filter.mp h).2

theorem segments_append (s t : String) : segments (s ++ "\\" ++ t) = segments s ++ segments t := by
  have hsplit : split (s ++ "\\" ++ t) '\\' = split s '\\' ++ split t '\\' :=
    split_of_toList (by simp)
  rw [segments, hsplit, List.filter_append, segments, segments]

theorem segments_of_not_mem (hne : s ≠ "") (h : '\\' ∉ s.toList) : segments s = [s] := by
  simp [segments, split_of_not_mem h, hne]

theorem segments_ofList_dropWhile (cs : List Char) :
    segments (String.ofList (cs.dropWhile (· == '\\'))) = segments (String.ofList cs) := by
  induction cs with
  | nil => rfl
  | cons c cs ih =>
    by_cases hc : c = '\\'
    · subst hc
      -- in front of the backslash stands an empty part, which is no segment
      have hcons : String.ofList ('\\' :: cs) = "" ++ "\\" ++ String.ofList cs := by
        rw [← String.toList_inj]
        simp
      have hempty : segments "" = [] := by decide
      rw [List.dropWhile_cons_of_pos (by simp), ih, hcons, segments_append, hempty, List.nil_append]
    · rw [List.dropWhile_cons_of_neg (by simpa using hc)]

theorem segments_dropLeading (className : String) :
    segments (dropLeading className '\\') = segments className := by
  rw [dropLeading, segments_ofList_dropWhile, String.ofList_toList]

theorem joinWith_segments_eq_empty_iff :
    joinWith "/" (segments className) = "" ↔ segments className = [] := by
  have hne : ∀ s ∈ segments className, s ≠ "" := fun s => ne_empty_of_mem_segments
  cases hsegments : segments className with
  | nil => simp [joinWith]
  | cons s names =>
    rw [hsegments, List.forall_mem_cons] at hne
    by_cases hnames : names = []
    · simp [hnames, joinWith, hne.1]
    · simp [joinWith_cons "/" s hnames]

/-! ### Imports -/

/-- The file of a class with these segments: the class lies in the application's namespace, and not in
nothing else. -/
def classFile? (names : List String) : Option String :=
  if names.head? = some "App" ∧ names.tail ≠ [] then
    some (appDir ++ "/" ++ joinWith "/" names.tail ++ sourceSuffix)
  else none

/-- A text without a leading backslash goes on to the first backslash or to its end. -/
theorem exists_first_segment (h : ∀ c ∈ className.toList.head?, c ≠ '\\') :
    className = "" ∨ ∃ first, first ≠ "" ∧ '\\' ∉ first.toList ∧
      (className = first ∨ ∃ more, className = first ++ "\\" ++ more) := by
  obtain ⟨first, rest, hsplit, hfirst, hrest⟩ := exists_run (· != '\\') className.toList
  have hmem : '\\' ∉ first := fun hmem => absurd (hfirst _ hmem) (by decide)
  have hclass : className = String.ofList first ++ String.ofList rest := by
    rw [← String.toList_inj, hsplit]
    simp
  cases rest with
  | nil =>
    cases first with
    | nil => exact .inl (by simpa using hclass)
    | cons c first =>
      exact .inr ⟨String.ofList (c :: first), by simp, by simpa using hmem, .inl (by simpa using hclass)⟩
  | cons d rest =>
    obtain rfl : d = '\\' := by simpa using hrest d rfl
    cases first with
    | nil => exact absurd rfl (h '\\' (by rw [hsplit]; rfl))
    | cons c first =>
      refine .inr ⟨String.ofList (c :: first), by simp, by simpa using hmem,
        .inr ⟨String.ofList rest, ?_⟩⟩
      rw [← String.toList_inj, hsplit]
      simp

theorem exists_more_of_segments (h : ∀ c ∈ className.toList.head?, c ≠ '\\') {first : String}
    {names : List String} (hsegments : segments className = first :: names) (hnames : names ≠ []) :
    ∃ more, className = first ++ "\\" ++ more := by
  rcases exists_first_segment h with hempty | ⟨lead, hne, hmem, hlead | ⟨more, hlead⟩⟩
  · rw [hempty] at hsegments
    exact absurd hsegments (by simp [segments, split, fields])
  · rw [hlead, segments_of_not_mem hne hmem] at hsegments
    exact absurd (List.cons.inj hsegments).2.symm hnames
  · rw [hlead, segments_append, segments_of_not_mem hne hmem] at hsegments
    exact ⟨more, (List.cons.inj hsegments).1 ▸ hlead⟩

/-- Of an import only the segments count. -/
theorem classPath?_eq_classFile? (className : String) :
    classPath? className = classFile? (segments className) := by
  rw [← segments_dropLeading, classPath?]
  cases hlead : dropLead? (dropLeading className '\\') appNamespace with
  | some inner =>
    have hname : dropLeading className '\\' = "App" ++ "\\" ++ inner :=
      dropLead?_eq_some_iff.mp hlead
    have happ : segments "App" = ["App"] := by decide
    rw [hname, segments_append, happ]
    simp only [classFile?, nestedPath_eq, joinWith_segments_eq_empty_iff, List.singleton_append,
      List.head?_cons, List.tail_cons, true_and, ite_not, ne_eq]
  | none =>
    rw [classFile?, if_neg]
    rintro ⟨hhead, htail⟩
    obtain ⟨names, hsegments⟩ := List.head?_eq_some_iff.mp hhead
    rw [hsegments, List.tail_cons] at htail
    obtain ⟨more, hmore⟩ := exists_more_of_segments (head?_dropLeading className '\\') hsegments htail
    have hsome : dropLead? (dropLeading className '\\') appNamespace = some more :=
      dropLead?_eq_some_iff.mpr hmore
    rw [hlead] at hsome
    exact absurd hsome (by simp)

/-! ### Controllers -/

/-- Whether a controller is written in full, with one backslash behind each part of the controllers'
namespace. -/
def IsQualified (className : String) : Prop :=
  startsWith (dropLeading className '\\') controllersNamespace = true

instance (className : String) : Decidable (IsQualified className) :=
  inferInstanceAs (Decidable (_ = true))

/-- The file of the controller with these segments below the controllers' namespace. -/
def controllerFile (names : List String) : String :=
  controllersDir ++ "/" ++ joinWith "/" names ++ sourceSuffix

theorem isQualified_iff : IsQualified className ↔
    ∃ inner, dropLeading className '\\' = controllersNamespace ++ inner := by
  rw [IsQualified, startsWith_iff_append]

theorem segments_controllersNamespace (inner : String) : segments (controllersNamespace ++ inner) =
    "App" :: "Http" :: "Controllers" :: segments inner := by
  have hspace : controllersNamespace ++ inner =
      "App" ++ "\\" ++ ("Http" ++ "\\" ++ ("Controllers" ++ "\\" ++ inner)) := by
    rw [← String.toList_inj]
    simp [controllersNamespace]
  rw [hspace, segments_append, segments_append, segments_append]
  simp [segments, split, fields]

theorem controllerPath_of_qualified
    (h : dropLeading className '\\' = controllersNamespace ++ inner) :
    controllerPath className = controllerFile (segments inner) := by
  have hdrop : dropLead? (dropLeading className '\\') controllersNamespace = some inner :=
    dropLead?_eq_some_iff.mpr h
  rw [controllerPath, hdrop]
  rfl

theorem controllerPath_of_not_qualified (h : ¬ IsQualified className) :
    controllerPath className = controllerFile (segments className) := by
  have hdrop : dropLead? (dropLeading className '\\') controllersNamespace = none := by
    rw [Option.eq_none_iff_forall_ne_some]
    intro inner hinner
    exact h (isQualified_iff.mpr ⟨inner, dropLead?_eq_some_iff.mp hinner⟩)
  rw [controllerPath, hdrop, Option.getD_none, nestedPath_eq, segments_dropLeading, controllerFile]

/-! ### Leading backslashes -/

theorem toList_repeated_backslash (n : ℕ) : (repeated "\\" n).toList = List.replicate n '\\' := by
  induction n with
  | zero => rfl
  | succ n ih =>
    rw [repeated, List.replicate_succ, String.join_cons, ← repeated, String.toList_append, ih,
      List.replicate_succ]
    rfl

theorem dropLeading_repeated (n : ℕ) (className : String) :
    dropLeading (repeated "\\" n ++ className) '\\' = dropLeading className '\\' := by
  rw [dropLeading, String.toList_append, toList_repeated_backslash,
    List.dropWhile_append_of_pos (by simp [List.mem_replicate]), dropLeading]

theorem segments_repeated (n : ℕ) (className : String) :
    segments (repeated "\\" n ++ className) = segments className := by
  rw [← segments_dropLeading, dropLeading_repeated, segments_dropLeading]

theorem isQualified_repeated (n : ℕ) (className : String) :
    IsQualified (repeated "\\" n ++ className) ↔ IsQualified className := by
  rw [IsQualified, dropLeading_repeated, IsQualified]

theorem dropLeading_controllersNamespace (n : ℕ) (inner : String) :
    dropLeading (repeated "\\" n ++ (controllersNamespace ++ inner)) '\\' =
      controllersNamespace ++ inner := by
  obtain ⟨rest, hrest⟩ : ∃ rest, controllersNamespace.toList = 'A' :: rest := ⟨_, rfl⟩
  rw [dropLeading_repeated, dropLeading, String.toList_append, hrest, List.cons_append,
    List.dropWhile_cons_of_neg (by decide), ← List.cons_append, ← hrest, ← String.toList_append,
    String.ofList_toList]

/-! ### One controller, one file -/

/-- An import of a controller names the file that a route names, whether the route gives the class in
full or from the controllers' namespace on, and however many backslashes stand in front. -/
theorem target_of_controller (hnamed : segments token ≠ []) (hplain : ¬ IsQualified token)
    (i j k : ℕ) :
    classPath? (repeated "\\" i ++ (controllersNamespace ++ token)) =
        some (controllerPath (repeated "\\" k ++ token)) ∧
      controllerPath (repeated "\\" j ++ (controllersNamespace ++ token)) =
        controllerPath (repeated "\\" k ++ token) ∧
      ∀ route, (Reference.classImport (repeated "\\" i ++ (controllersNamespace ++ token))).target =
        (Reference.controller route (repeated "\\" k ++ token)).target := by
  have hfile : controllerPath (repeated "\\" k ++ token) = controllerFile (segments token) := by
    rw [controllerPath_of_not_qualified (by rwa [isQualified_repeated]), segments_repeated]
  have hfull : controllerPath (repeated "\\" j ++ (controllersNamespace ++ token)) =
      controllerFile (segments token) :=
    controllerPath_of_qualified (dropLeading_controllersNamespace j token)
  have himport : classPath? (repeated "\\" i ++ (controllersNamespace ++ token)) =
      some (controllerFile (segments token)) := by
    have hjoin : joinWith "/" ("Http" :: "Controllers" :: segments token) =
        "Http" ++ "/" ++ ("Controllers" ++ "/" ++ joinWith "/" (segments token)) := by
      rw [joinWith_cons "/" "Http" (by simp), joinWith_cons "/" "Controllers" hnamed]
    rw [classPath?_eq_classFile?, segments_repeated, segments_controllersNamespace, classFile?,
      if_pos (by simp), List.tail_cons, hjoin, controllerFile, Option.some_inj, ← String.toList_inj]
    simp [appDir, controllersDir]
  refine ⟨by rw [himport, hfile], by rw [hfull, hfile], fun route => ?_⟩
  rw [Reference.target, Reference.target, himport, hfile]

theorem target_of_userController : segments "Admin\\\\UserController\\" ≠ [] ∧
    ¬ IsQualified "Admin\\\\UserController\\" ∧
    classPath? "\\App\\Http\\Controllers\\Admin\\\\UserController\\" =
      some (controllerPath "\\\\Admin\\\\UserController\\") ∧
    controllerPath "App\\Http\\Controllers\\Admin\\\\UserController\\" =
      controllerPath "\\\\Admin\\\\UserController\\" ∧
    (Reference.classImport "\\App\\Http\\Controllers\\Admin\\\\UserController\\").target =
      (Reference.controller "/users" "\\\\Admin\\\\UserController\\").target ∧
    controllerPath "\\\\Admin\\\\UserController\\" =
      "app/Http/Controllers/Admin/UserController.php" := by
  have hnamed : segments "Admin\\\\UserController\\" ≠ [] := by decide
  have hplain : ¬ IsQualified "Admin\\\\UserController\\" := by decide
  obtain ⟨himport, hfull, htarget⟩ := target_of_controller hnamed hplain 1 0 2
  exact ⟨hnamed, hplain, himport, hfull, htarget "/users", by decide⟩

/-! ### Names with the same segments -/

theorem exists_names_of_qualified (h : IsQualified className) : ∃ names,
    segments className = "App" :: "Http" :: "Controllers" :: names ∧
      controllerPath className = controllerFile names := by
  obtain ⟨inner, hinner⟩ := isQualified_iff.mp h
  refine ⟨segments inner, ?_, controllerPath_of_qualified hinner⟩
  rw [← segments_dropLeading, hinner, segments_controllersNamespace]

/-- Either way the segments below the controllers' namespace are the last ones of the name. -/
theorem exists_controllerFile (className : String) : ∃ names, names <:+ segments className ∧
    controllerPath className = controllerFile names := by
  by_cases h : IsQualified className
  · obtain ⟨names, hnames, hpath⟩ := exists_names_of_qualified h
    exact ⟨names, ⟨["App", "Http", "Controllers"], hnames.symm⟩, hpath⟩
  · exact ⟨_, List.suffix_rfl, controllerPath_of_not_qualified h⟩

/-- A longer list of segments makes a longer path. -/
theorem controllerFile_ne (names : List String) :
    controllerFile names ≠ controllerFile ("App" :: "Http" :: "Controllers" :: names) := by
  intro h
  have hjoin : joinWith "/" names = joinWith "/" ("App" :: "Http" :: "Controllers" :: names) := by
    simpa [controllerFile] using h
  by_cases hnames : names = []
  · subst hnames
    exact absurd hjoin (by decide)
  · rw [joinWith_cons "/" "App" (by simp), joinWith_cons "/" "Http" (by simp),
      joinWith_cons "/" "Controllers" hnames] at hjoin
    have hlen := congrArg String.length hjoin
    simp only [String.length_append] at hlen
    have happ : "App".length = 3 := rfl
    omega

theorem controllerPath_ne_of_qualified (h : segments a = segments b) (ha : IsQualified a)
    (hb : ¬ IsQualified b) : controllerPath a ≠ controllerPath b := by
  obtain ⟨names, hnames, hpath⟩ := exists_names_of_qualified ha
  rw [hpath, controllerPath_of_not_qualified hb, ← h, hnames]
  exact controllerFile_ne names

/-- Two names with the same segments name the same file of an import. As names of a controller they do
so exactly if both are written in full, or neither is. -/
theorem paths_of_segments (h : segments a = segments b) : classPath? a = classPath? b ∧
    (controllerPath a = controllerPath b ↔ (IsQualified a ↔ IsQualified b)) := by
  refine ⟨by rw [classPath?_eq_classFile?, h, classPath?_eq_classFile?], ?_⟩
  by_cases ha : IsQualified a
  · by_cases hb : IsQualified b
    · obtain ⟨names, hnames, hpath⟩ := exists_names_of_qualified ha
      obtain ⟨names', hnames', hpath'⟩ := exists_names_of_qualified hb
      have hsame : names = names' := by simpa [h, hnames'] using hnames.symm
      simp [hpath, hpath', hsame, ha, hb]
    · simp [controllerPath_ne_of_qualified h ha hb, ha, hb]
  · by_cases hb : IsQualified b
    · simp [(controllerPath_ne_of_qualified h.symm hb ha).symm, ha, hb]
    · simp [controllerPath_of_not_qualified ha, controllerPath_of_not_qualified hb, h, ha, hb]

theorem paths_of_reportController :
    segments "App\\Http\\Controllers\\\\ReportController\\" =
      segments "\\\\App\\Http\\Controllers\\ReportController" ∧
    classPath? "App\\Http\\Controllers\\\\ReportController\\" =
      classPath? "\\\\App\\Http\\Controllers\\ReportController" ∧
    controllerPath "App\\Http\\Controllers\\\\ReportController\\" =
      controllerPath "\\\\App\\Http\\Controllers\\ReportController" := by
  have hsame : segments "App\\Http\\Controllers\\\\ReportController\\" =
      segments "\\\\App\\Http\\Controllers\\ReportController" := by
    simp [segments, split, fields]
  obtain ⟨himport, hcontroller⟩ := paths_of_segments hsame
  exact ⟨hsame, himport, hcontroller.mpr (by decide)⟩

/-- A second backslash inside the controllers' namespace leads to another file. -/
theorem controllerPath_of_doubled_backslash : ¬ ∀ a b : String, segments a = segments b →
    classPath? a = classPath? b ∧ controllerPath a = controllerPath b := by
  intro h
  have hsame : segments "App\\Http\\Controllers\\ReportController" =
      segments "App\\\\Http\\Controllers\\ReportController" := by
    simp [segments, split, fields]
  exact controllerPath_ne_of_qualified hsame (by decide) (by decide) (h _ _ hsame).2

end UnusedAssets.Layout
