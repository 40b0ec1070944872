import UnusedAssets.Proofs.Removal.Exactness
import UnusedAssets.Proofs.Removal.Script

/-!
# What removal commands are applied to

The last word of a removal command is the path of a file, from the project's folder on. No word
before it ends the options, so a path that begins with a hyphen is taken for one; and it does so
exactly if an entry of the project's folder has a name that does (`removal_operand`).
-/

namespace UnusedAssets

open Text FileTree

/-- Whether the path is taken for an option: it looks like one, and no word before it ends the
options. -/
def RemovalCommand.IsOption (c : RemovalCommand) : Prop :=
  startsWith c.path "-" = true ∧ "--" ∉ c.program

theorem RemovalCommand.not_mem_program (c : RemovalCommand) : "--" ∉ c.program := by
  rw [program]
  split <;> decide

/-- A hyphen is read only from the byte that spells it. -/
theorem startsWith_hyphen_decodeLenient (name : Bytes) :
    startsWith (decodeLenient name) "-" = true ↔ encode "-" <+: name := by
  have hhyphen : startsWith (decodeLenient name) "-" = ['-'].isPrefixOf (lenientChars name) :=
    congrArg ['-'].isPrefixOf String.toList_ofList
  have hbytes : encode "-" = [45] := by decide
  rw [hhyphen, List.isPrefixOf_iff_prefix, hbytes]
  cases name with
  | nil => exact iff_of_false (by decide) (by decide)
  | cons first rest =>
    rw [lenientChars_cons, List.cons_prefix_cons, List.cons_prefix_cons]
    refine and_congr ⟨fun hread => ?_, ?_⟩ (iff_of_true List.nil_prefix List.nil_prefix)
    · rcases isReading_decodeFirst first rest with hwritten | hreplaced
      · rw [← hread] at hwritten
        exact (List.cons.inj hwritten).1
      · exact absurd (hread.trans hreplaced) (by decide)
    · rintro rfl
      rfl

theorem startsWith_hyphen_textOf {name : Bytes} (hname : name ≠ []) (rest : List Bytes) :
    startsWith (Path.textOf (name :: rest)) "-" = true ↔ encode "-" <+: name := by
  rw [← startsWith_hyphen_decodeLenient, Path.textOf, List.map_cons]
  by_cases hrest : rest = []
  · subst hrest
    rfl
  · rw [joinWith_cons "/" _ (by simpa), String.append_assoc]
    obtain ⟨c, cs, hcs⟩ : ∃ c cs, (decodeLenient name).toList = c :: cs :=
      List.exists_cons_of_ne_nil fun hnil =>
        hname (decodeLenient_eq_empty_iff.mp (String.toList_eq_nil_iff.mp hnil))
    have hhyphen : "-".toList = ['-'] := rfl
    rw [startsWith, startsWith, String.toList_append, hcs, hhyphen]
    rfl

namespace Project

variable {p : Project} {path : String}

/-- The path of a file begins with the name of an entry of the project's folder. -/
theorem HasFile.exists_first (h : p.HasFile path) : ∃ top name rest e,
    p.tree.resolve p.cwd p.root = .ok top ∧ p.tree.lookup? (top ++ [name]) = some e ∧
      path = Path.textOf (name :: rest) ∧ ∀ n ∈ name :: rest, IsName n := by
  obtain ⟨top, names, last, htop, -, hpath, hentry⟩ := h
  obtain ⟨e, he⟩ : ∃ e, p.tree.lookup? (top ++ (names ++ [last])) = some e := by
    rcases hentry with ⟨content, executable, he⟩ | ⟨⟨target, he⟩, -⟩
    · exact ⟨_, he⟩
    · exact ⟨_, he⟩
  have hnames : ∀ n ∈ names ++ [last], IsName n :=
    fun n hn => isName_of_lookup? he n (List.mem_append_right _ hn)
  cases names with
  | nil => exact ⟨top, last, [], e, htop, he, hpath, hnames⟩
  | cons name names =>
    refine ⟨top, name, names ++ [last], .folder, htop, ?_, hpath, hnames⟩
    have hall : top ++ (name :: names ++ [last]) = (top ++ [name]) ++ (names ++ [last]) := by simp
    rw [hall] at he
    exact lookup?_of_append he (by simp)

/-- To a shell a removal command is a program and, last of all, the path of the file. The path is
taken for an option exactly if the entry of the project's folder that it leads to first has a name
with a hyphen at its beginning. -/
theorem removal_operand {s : Settings} {a : Analysis} {events : List Event}
    (h : p.analyze s = .ok (a, events)) (reply : ListingReply) :
    ∀ c ∈ a.removalCommands reply, Shell.read c.text = .ok [[c.program ++ [c.path]]] ∧
      ∃ top name rest e, p.tree.resolve p.cwd p.root = .ok top ∧
        p.tree.lookup? (top ++ [name]) = some e ∧ c.path = Path.textOf (name :: rest) ∧
        (c.IsOption ↔ encode "-" <+: name) := by
  intro c hc
  have hunused : c.path ∈ a.unused := Analysis.mem_removalCommands.mp (List.mem_map_of_mem hc)
  obtain ⟨top, name, rest, e, htop, he, hpath, hnames⟩ :=
    (hasFile_of_mem_unused h c.path hunused).exists_first
  have hnul : '\x00' ∉ c.path.toList := hpath ▸ Path.not_mem_nul_textOf hnames
  refine ⟨c.read_text hnul, top, name, rest, e, htop, he, hpath, ?_⟩
  rw [RemovalCommand.IsOption, and_iff_left c.not_mem_program, hpath,
    startsWith_hyphen_textOf (hnames name List.mem_cons_self).1]

/-- A project with one unused file, whose name looks like an option. -/
def withDashedFile : Project where
  tree := .ofEntries [(["-f.css"], .file [] false)] (by decide)
  cwd := []
  root := "/"

theorem mem_commands_withDashedFile {a : Analysis} {events : List Event}
    (h : withDashedFile.analyze {} = .ok (a, events)) :
    ⟨"-f.css", false⟩ ∈ a.removalCommands .missing := by
  have hfile : withDashedFile.HasFile "-f.css" :=
    ⟨[], [], "-f.css", resolve_top _ _, .root, rfl, .inl ⟨[], false, by decide⟩⟩
  have hvisits : Survey.visits withDashedFile = [] :=
    Survey.visits_eq_nil_of_absent (resolve_top _ _) (by decide)
  have hunused : "-f.css" ∈ a.unused :=
    mem_unused_of_no_visits h hvisits hfile ⟨".css", by decide, by decide⟩ (by decide) rfl
      (by decide)
  refine List.mem_map.mpr ⟨"-f.css", ?_, rfl⟩
  rw [OrderedSet.mem_toList, OrderedSet.mem_ofList]
  exact hunused

theorem removal_operand_withDashedFile : ∃ a events,
    withDashedFile.analyze {} = .ok (a, events) ∧
      ∀ c ∈ a.removalCommands .missing, Shell.read c.text = .ok [[c.program ++ [c.path]]] ∧
        ∃ top name rest e, withDashedFile.tree.resolve [] "/" = .ok top ∧
          withDashedFile.tree.lookup? (top ++ [name]) = some e ∧
          c.path = Path.textOf (name :: rest) ∧ (c.IsOption ↔ encode "-" <+: name) := by
  obtain ⟨a, events, ha⟩ := exists_analyze (p := withDashedFile) (s := {}) (isFolder_top _ _)
  exact ⟨a, events, ha, removal_operand ha .missing⟩

/-- The path of an unused file is taken for an option. -/
theorem dashed_file_is_option : ∃ a events, withDashedFile.analyze {} = .ok (a, events) ∧
    ∃ c ∈ a.removalCommands .missing, c.text = "rm '-f.css'" ∧
      Shell.read c.text = .ok [[["rm", "-f.css"]]] ∧ c.IsOption := by
  obtain ⟨a, events, ha⟩ := exists_analyze (p := withDashedFile) (s := {}) (isFolder_top _ _)
  refine ⟨a, events, ha, _, mem_commands_withDashedFile ha, by decide, ?_, by decide, by decide⟩
  exact RemovalCommand.read_text _ (by decide)

end Project

end UnusedAssets
