import UnusedAssets.Proofs.Removal.Operand
import UnusedAssets.Proofs.Report.Grouping
import UnusedAssets.Proofs.Report.JsonReader

/-!
# What the reports of an analysis agree on

The plain report, the JSON report, the removal commands and the removal script tell the unused files
of an analysis each in its own way: by groups, by number, in order, or as the words of a shell. The
unused files are ascending, so nothing is lost or told twice on any of these ways
(`renderings_agree`).
-/

namespace UnusedAssets

open Text FileTree

namespace Json

def member? (name : String) : Json → Option Json
  | .object members => members.lookup name
  | _ => none

def text? : Json → Option String
  | .text s => some s
  | _ => none

def texts? : Json → Option (List String)
  | .array elements => elements.mapM text?
  | _ => none

/-- An object of arrays of texts, as groups with names. -/
def groups? : Json → Option (List (String × List String))
  | .object members => members.mapM fun m => (texts? m.2).map (m.1, ·)
  | _ => none

theorem texts?_array (ss : List String) : texts? (.array (ss.map .text)) = some ss := by
  rw [texts?]
  induction ss with
  | nil => rfl
  | cons s ss ih => simp [text?, ih]

theorem groups?_object (groups : List (String × List String)) :
    groups? (.object (groups.map fun g => (g.1, .array (g.2.map .text)))) = some groups := by
  rw [groups?]
  induction groups with
  | nil => rfl
  | cons g groups ih => simp [texts?_array, ih]

end Json

namespace Report

variable {paths : List String}

/-- The number in the headline of a plain report, none if it is no such report. -/
def headlineNumber? (report : String) : Option Nat :=
  match dropLead? report "Found " with
  | some rest => some (Nat.ofDigitChars 10 (rest.toList.takeWhile Char.isDigit) 0)
  | none => if startsWith report "No unused files found.\n" then some 0 else none

theorem headlineNumber?_found (n : Nat) (rest : String) :
    headlineNumber? ("Found " ++ toString n ++ " unused files:\n" ++ rest) = some n := by
  have hdrop : dropLead? ("Found " ++ toString n ++ " unused files:\n" ++ rest) "Found " =
      some (toString n ++ " unused files:\n" ++ rest) :=
    dropLead?_eq_some_iff.mpr (by simp only [String.append_assoc])
  have hdigits : (toString n ++ " unused files:\n" ++ rest).toList.takeWhile Char.isDigit =
      Nat.toDigits 10 n := by
    rw [String.append_assoc, String.toList_append,
      List.takeWhile_append_of_pos fun c hc => isDigit_of_mem_toString hc, String.toList_append,
      Nat.toString_eq_ofList_toDigits, String.toList_ofList]
    exact List.append_nil _
  rw [headlineNumber?, hdrop]
  simp only [hdigits, Nat.ofDigitChars_ten_toDigits]

theorem headlineNumber?_none (rest : String) :
    headlineNumber? ("No unused files found.\n" ++ rest) = some 0 := by
  have hdrop : dropLead? ("No unused files found.\n" ++ rest) "Found " = none := by
    rw [dropLead?, String.toList_append]
    rfl
  have hstart : startsWith ("No unused files found.\n" ++ rest) "No unused files found.\n" = true :=
    startsWith_iff.mpr ⟨rest.toList, String.toList_append⟩
  rw [headlineNumber?, hdrop]
  simp only [hstart, ↓reduceIte]

theorem headlineNumber?_text (r : Plain) : headlineNumber? r.text = some r.total := by
  rw [Plain.text, headline]
  by_cases hr : r.total = 0
  · rw [if_pos hr, hr]
    exact headlineNumber?_none _
  · rw [if_neg hr, String.append_assoc, String.append_assoc]
    exact headlineNumber?_found _ _

theorem groups_plainOf (unused : List String) :
    ((plainOf unused).groups.map fun g => (g.extension, g.paths)) =
      (byExtension unused).toList := by
  rw [plainOf, List.map_map]
  exact List.map_id _

/-- A plain report tells some paths: their number at its head, and the paths in groups, with the
number of each. -/
structure PlainTells (report : String) (paths : List String) : Prop where
  headline : headlineNumber? report = some paths.length
  groups : ∃ r : Plain, report = r.text ∧ r.total = paths.length ∧
    (r.groups.map (·.count)).sum = paths.length ∧ (∀ g ∈ r.groups, g.count = g.paths.length) ∧
    Groups paths (r.groups.map fun g => (g.extension, g.paths))

theorem plainTells (h : Ascending paths) : PlainTells (plain paths) paths := by
  have hgroups := groups_byExtension h
  have hplain := plain_eq_text paths
  refine ⟨?_, plainOf paths, hplain, rfl, ?_, ?_, ?_⟩
  · rw [hplain]
    exact headlineNumber?_text _
  · rw [← hgroups.sum_length, plainOf, List.map_map]
    rfl
  · intro g hg
    obtain ⟨group, -, rfl⟩ := List.mem_map.mp hg
    rfl
  · rw [groups_plainOf]
    exact hgroups

/-- A printed JSON report tells some paths: it reads as a document with their number, the paths in
groups, and a command for each. -/
structure JsonTells (report : String) (paths : List String) (doc : Json) : Prop where
  reads : JsonText.read report = some doc
  count : doc.member? "unused_count" = some (.count paths.length)
  groups : ∃ groups, (doc.member? "unused_by_extension").bind Json.groups? = some groups ∧
    (groups.map (·.2.length)).sum = paths.length ∧ Groups paths groups
  commands : ∃ lines, (doc.member? "commands").bind Json.texts? = some lines ∧
    lines.length = paths.length

theorem jsonTells {a : Analysis} {commands : List RemovalCommand} (h : Ascending a.unused)
    (hlength : commands.length = a.unused.length) :
    JsonTells (document a commands).pretty a.unused (document a commands) where
  reads := JsonText.read_pretty _
  count := rfl
  groups := ⟨_, Json.groups?_object _, (groups_byExtension h).sum_length, groups_byExtension h⟩
  commands := by
    refine ⟨commands.map (·.text), ?_, by rw [List.length_map, hlength]⟩
    rw [← Json.texts?_array, List.map_map]
    rfl

end Report

namespace Project

variable {p : Project} {s : Settings} {a : Analysis} {events : List Event}

theorem root_of_analyze (h : p.analyze s = .ok (a, events)) : a.root = p.rootText := by
  have hf := isFolder_of_analyze h
  simp only [analyze, trace, hf, ↓reduceIte, Except.ok.injEq, Prod.mk.injEq] at h
  rw [← h.1]

theorem ascending_unused (h : p.analyze s = .ok (a, events)) : Report.Ascending a.unused := by
  rw [unused_of_analyze h]
  exact (Report.Ascending.filter a.graph.candidates.ascending _).filter _

/-- There is one command for each unused file, in the same order. -/
theorem paths_removalCommands (h : p.analyze s = .ok (a, events)) (reply : ListingReply) :
    (a.removalCommands reply).map (·.path) = a.unused := by
  rw [Analysis.removalCommands, RemovalCommand.paths_all]
  exact OrderedSet.eq_of_mem_iff (OrderedSet.ofList a.unused).ascending (ascending_unused h)
    fun _ => OrderedSet.mem_ofList

theorem length_removalCommands (h : p.analyze s = .ok (a, events)) (reply : ListingReply) :
    (a.removalCommands reply).length = a.unused.length := by
  rw [← paths_removalCommands h reply, List.length_map]

theorem not_mem_nul_root (h : p.analyze s = .ok (a, events)) : '\x00' ∉ a.root.toList := by
  obtain ⟨l, hl, -⟩ := FileTree.isFolder_iff.mp (isFolder_of_analyze h)
  have hfault := (FileTree.resolve_eq_ok_iff.mp hl).1
  rw [root_of_analyze h, rootText]
  intro hnul
  have hbyte : 0 ∈ p.root := Text.byte_mem_of_mem_decodeLenient (c := '\x00') (by decide) hnul
  simp [FileTree.pathFault?, FileTree.shapeFault?, hbyte] at hfault

theorem not_mem_nul_removalCommands (h : p.analyze s = .ok (a, events)) (reply : ListingReply) :
    ∀ c ∈ a.removalCommands reply, '\x00' ∉ c.path.toList := by
  intro c hc
  have hunused : c.path ∈ a.unused := Analysis.mem_removalCommands.mp (List.mem_map_of_mem hc)
  obtain ⟨-, name, rest, -, -, -, hpath, hnames⟩ :=
    (hasFile_of_mem_unused h c.path hunused).exists_first
  exact hpath ▸ Path.not_mem_nul_textOf hnames

/-- All reports of an analysis tell the same number of unused files, and the same files. -/
theorem renderings_agree (h : p.analyze s = .ok (a, events)) (reply : ListingReply)
    (made : Option Timestamp) :
    Report.PlainTells (Report.plain a.unused) a.unused ∧
    (∃ doc, Report.JsonTells (Report.document a (a.removalCommands reply)).pretty a.unused doc) ∧
    Shell.read (RemovalScript.text a.root (a.removalCommands reply) made) = .ok (
      [[["cd", a.root], ["exit", "1"]],
        [["echo", "Removing " ++ toString a.unused.length ++ " unused files..."]]] ++
      (a.removalCommands reply).map (fun c => [c.words]) ++ [[["echo", "Removal complete!"]]]) ∧
    (a.removalCommands reply).length = a.unused.length ∧
    ((a.removalCommands reply).map (·.path)).Perm a.unused ∧
    ((a.removalCommands reply).map (·.path)).Nodup := by
  have hascending := ascending_unused h
  have hpaths := paths_removalCommands h reply
  have hlength := length_removalCommands h reply
  have hread := RemovalScript.read_text made (not_mem_nul_root h)
    (not_mem_nul_removalCommands h reply)
  rw [RemovalScript.linesOf, hlength] at hread
  refine ⟨Report.plainTells hascending, ⟨_, Report.jsonTells hascending hlength⟩, hread, hlength,
    ?_, ?_⟩
  · rw [hpaths]
  · rw [hpaths]
    exact hascending.nodup

theorem renderings_agree_site : ∃ a events,
    linkedSite.analyze siteSettings = .ok (a, events) ∧ DividesSite a ∧
      Report.PlainTells (Report.plain a.unused) a.unused ∧
      (∃ doc, Report.JsonTells (Report.document a (a.removalCommands .missing)).pretty a.unused
        doc) ∧
      (a.removalCommands .missing).length = a.unused.length := by
  obtain ⟨a, events, ha⟩ := exists_analyze (s := siteSettings) isFolder_linkedSite
  obtain ⟨hplain, hjson, -, hlength, -⟩ := renderings_agree ha .missing none
  exact ⟨a, events, ha, dividesSite ha, hplain, hjson, hlength⟩

end Project

end UnusedAssets
