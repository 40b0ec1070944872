import UnusedAssets.Proofs.Shell.Reader
import UnusedAssets.Removal.Script

/-!
# What a removal script means to a shell

A shell that reads a removal script finds the project entered, the number of commands told, and
then the removal commands one after the other, each path a word of its own (`text_means`). So the
root and the paths may hold whatever a shell would otherwise act on, and the script tells them all.
-/

namespace UnusedAssets

open Text Shell

theorem isDigit_of_mem_toString {n : Nat} {c : Char} (h : c ∈ (toString n).toList) :
    c.isDigit = true := by
  rw [Nat.toString_eq_repr, Nat.toList_repr] at h
  exact Nat.isDigit_of_mem_toDigits (by decide) (by decide) h

theorem not_mem_toString {n : Nat} {c : Char} (h : c.isDigit = false) :
    c ∉ (toString n).toList := by
  intro hc
  rw [isDigit_of_mem_toString hc] at h
  exact absurd h (by simp)

namespace Timestamp

theorem fitsComment_padded (width n : Nat) : FitsComment (padded width n) := by
  have hzeros : FitsComment (String.ofList (List.replicate (width - (toString n).length) '0')) := by
    simp [FitsComment]
  have hdigits : FitsComment (toString n) :=
    ⟨not_mem_toString (by decide), not_mem_toString (by decide)⟩
  exact hzeros.append hdigits

theorem fitsComment_yearText (year : Int) : FitsComment (yearText year) := by
  have hyear := fitsComment_padded 4 year.natAbs
  have hminus : FitsComment "-" := by decide
  have hplus : FitsComment "+" := by decide
  unfold yearText
  split
  · exact hminus.append hyear
  · split
    · exact hplus.append hyear
    · exact hyear

theorem fitsComment_text (t : Timestamp) : FitsComment t.text := by
  have hpart := fitsComment_padded 2
  have hdash : FitsComment "-" := by decide
  have htime : FitsComment "T" := by decide
  have hcolon : FitsComment ":" := by decide
  have hzone : FitsComment "Z" := by decide
  rw [text]
  exact (((((((((((fitsComment_yearText _).append hdash).append (hpart _)).append hdash).append
    (hpart _)).append htime).append (hpart _)).append hcolon).append (hpart _)).append
      hcolon).append (hpart _)).append hzone

end Timestamp

namespace RemovalCommand

/-- The words before the path. -/
def program (c : RemovalCommand) : List String :=
  if c.tracked then ["git", "rm", "-f"] else ["rm"]

def words (c : RemovalCommand) : List String := c.program ++ [c.path]

theorem words_injective : Function.Injective words := by
  rintro ⟨path, tracked⟩ ⟨path', tracked'⟩ h
  cases tracked <;> cases tracked' <;> simp_all [words, program]

theorem scans_text (c : RemovalCommand) (h : '\x00' ∉ c.path.toList) :
    Scans .between c.text.toList (c.program.map .word) (.word c.path.toList) := by
  rw [text, program]
  cases c.tracked with
  | true =>
    have hprogram : Scans .between "git rm -f ".toList [.word "git", .word "rm", .word "-f"]
        .between := rfl
    exact hprogram.append_text (scans_shellQuoted h)
  | false =>
    have hprogram : Scans .between "rm ".toList [.word "rm"] .between := rfl
    exact hprogram.append_text (scans_shellQuoted h)

theorem read_text (c : RemovalCommand) (h : '\x00' ∉ c.path.toList) :
    Shell.read c.text = .ok [[c.words]] :=
  read_of_scans _ (c.scans_text h)

theorem readsAs_text (c : RemovalCommand) (h : '\x00' ∉ c.path.toList) :
    ReadsAs (c.text ++ "\n") [[c.words]] := by
  have hscan : Scans .between (c.text ++ "\n").toList (c.words.map .word ++ [.newline])
      .between := by
    rw [words, List.map_append, List.append_assoc]
    exact (c.scans_text h).append_text (scans_word_newline c.path)
  have hline := readsAs_line _ hscan (by simp [words]) (by simp)
  rwa [lineOf_words] at hline

end RemovalCommand

namespace RemovalScript

def linesOf (root : String) (commands : List RemovalCommand) : List Shell.Line :=
  [[["cd", root], ["exit", "1"]],
      [["echo", "Removing " ++ toString commands.length ++ " unused files..."]]] ++
    commands.map (fun c => [c.words]) ++ [[["echo", "Removal complete!"]]]

variable {root root' : String} {commands commands' : List RemovalCommand}

theorem linesOf_inj (h : linesOf root commands = linesOf root' commands') :
    root = root' ∧ commands = commands' := by
  simp only [linesOf, List.cons_append, List.nil_append, List.cons.injEq] at h
  obtain ⟨⟨⟨-, hroot, -⟩, -⟩, -, hrest⟩ := h
  refine ⟨hroot, ?_⟩
  refine (List.map_inj_right fun c c' hc => ?_).mp (List.append_cancel_right hrest)
  exact RemovalCommand.words_injective (List.cons.inj hc).1

theorem readsAs_stampLine (t : Timestamp) : ReadsAs (stampLine t) [] := by
  have hmark : "# Generated by deadasset at " = "#" ++ " Generated by deadasset at " := by decide
  have hfits : FitsComment (" Generated by deadasset at " ++ t.text) :=
    FitsComment.append (by decide) t.fitsComment_text
  have hline : stampLine t = "#" ++ (" Generated by deadasset at " ++ t.text) ++ "\n" := by
    refine (congrArg (fun mark => mark ++ t.text ++ "\n") hmark).trans ?_
    exact congrArg (fun line => line ++ "\n") String.append_assoc
  rw [hline]
  exact readsAs_comment hfits

theorem readsAs_header (made : Option Timestamp) : ReadsAs (header made) [] := by
  have hshebang : FitsComment "!/bin/bash" := by decide
  have hpurpose : FitsComment " Script to remove unused files" := by decide
  have hwarning : FitsComment " WARNING: review before running!" := by decide
  have hlead := ((readsAs_comment hshebang).append (readsAs_comment hpurpose)).append
    (readsAs_comment hwarning)
  cases made with
  | none => exact hlead.append .nil
  | some t => exact hlead.append (readsAs_stampLine t)

theorem readsAs_cd (h : '\x00' ∉ root.toList) :
    ReadsAs ("cd " ++ shellQuoted root ++ " || exit 1\n") [[["cd", root], ["exit", "1"]]] := by
  have hcd : Scans .between "cd ".toList [.word "cd"] .between := rfl
  have hexit : Scans .between "|| exit 1\n".toList [.or, .word "exit", .word "1", .newline]
      .between := rfl
  have hafter : Scans (.word root.toList) " || exit 1\n".toList
      [.word root, .or, .word "exit", .word "1", .newline] .between :=
    (scans_word_blank root).append hexit
  have hall := (hcd.append_text (scans_shellQuoted h)).append_text hafter
  exact readsAs_line [.word "cd", .word root, .or, .word "exit", .word "1"] hall (by simp)
    (by simp)

theorem readsAs_echo (message : String) (hquote : '\'' ∉ message.toList)
    (hnul : '\x00' ∉ message.toList) :
    ReadsAs ("echo '" ++ message ++ "'\n") [[["echo", message]]] := by
  have hecho : Scans .between "echo '".toList [.word "echo"] (.single []) := rfl
  have hmessage : Scans (.single []) message.toList [] (.single message.toList) :=
    scans_single hquote hnul
  have hall := (hecho.append_text hmessage).append_text (scans_close_newline message)
  exact readsAs_line [.word "echo", .word message] hall (by simp) (by simp)

theorem readsAs_count (n : Nat) :
    ReadsAs ("echo 'Removing " ++ toString n ++ " unused files...'\n")
      [[["echo", "Removing " ++ toString n ++ " unused files..."]]] := by
  have hmem (c : Char) (hbefore : c ∉ "Removing ".toList) (hdigit : c.isDigit = false)
      (hafter : c ∉ " unused files...".toList) :
      c ∉ ("Removing " ++ toString n ++ " unused files...").toList := by
    rw [String.toList_append, String.toList_append, List.mem_append, List.mem_append, not_or,
      not_or]
    exact ⟨⟨hbefore, not_mem_toString hdigit⟩, hafter⟩
  have hbegin : "echo 'Removing " = "echo '" ++ "Removing " := by decide
  have hend : " unused files...'\n" = " unused files..." ++ "'\n" := by decide
  have hline := readsAs_echo _ (hmem '\'' (by decide) (by decide) (by decide))
    (hmem '\x00' (by decide) (by decide) (by decide))
  rwa [← String.append_assoc, ← String.append_assoc, ← hbegin, String.append_assoc, ← hend] at hline

theorem readsAs_commands (h : ∀ c ∈ commands, '\x00' ∉ c.path.toList) :
    ReadsAs (String.join (commands.map fun c => c.text ++ "\n"))
      (commands.map fun c => [c.words]) := by
  induction commands with
  | nil => exact .nil
  | cons c commands ih =>
    obtain ⟨hc, hcommands⟩ := List.forall_mem_cons.mp h
    rw [List.map_cons, List.map_cons, String.join_cons]
    exact (c.readsAs_text hc).append (ih hcommands)

theorem readsAs_text (made : Option Timestamp) (hroot : '\x00' ∉ root.toList)
    (hcommands : ∀ c ∈ commands, '\x00' ∉ c.path.toList) :
    ReadsAs (text root commands made) (linesOf root commands) := by
  have hblank : ReadsAs "\n" [] := readsAs_blank rfl
  have hend : ReadsAs "echo 'Removal complete!'\n" [[["echo", "Removal complete!"]]] :=
    readsAs_echo "Removal complete!" (by decide) (by decide)
  have hgroups : text root commands made = header made ++ "\n" ++
      ("cd " ++ shellQuoted root ++ " || exit 1\n") ++ "\n" ++
      ("echo 'Removing " ++ toString commands.length ++ " unused files...'\n") ++ "\n" ++
      String.join (commands.map fun c => c.text ++ "\n") ++ "\n" ++
      "echo 'Removal complete!'\n" := by
    simp only [text, String.append_assoc]
  have hstart := (((readsAs_header made).append hblank).append (readsAs_cd hroot)).append hblank
  have hcount := (hstart.append (readsAs_count commands.length)).append hblank
  have hall := ((hcount.append (readsAs_commands hcommands)).append hblank).append hend
  simp only [List.nil_append, List.append_nil] at hall
  rw [hgroups]
  exact hall

theorem read_text (made : Option Timestamp) (hroot : '\x00' ∉ root.toList)
    (hcommands : ∀ c ∈ commands, '\x00' ∉ c.path.toList) :
    Shell.read (text root commands made) = .ok (linesOf root commands) := by
  refine read_of_readsAs (readsAs_text made hroot hcommands) ?_
  intro line hline
  simp only [linesOf, List.mem_append, List.mem_cons, List.mem_map, List.not_mem_nil,
    or_false] at hline
  rcases hline with ((rfl | rfl) | ⟨c, -, rfl⟩) | rfl
  · simp
  · simp
  · simp [RemovalCommand.words]
  · simp

/-- Whatever a root and some paths hold, a zero character apart, to a shell the script for them is
the commands and nothing else. A quoted text is the word that was quoted, and a script is that of no
other root and no other commands. -/
theorem text_means (root : String) (commands : List RemovalCommand) (made : Option Timestamp)
    (hroot : '\x00' ∉ root.toList) (hcommands : ∀ c ∈ commands, '\x00' ∉ c.path.toList) :
    Shell.read (text root commands made) = .ok (
      [[["cd", root], ["exit", "1"]],
        [["echo", "Removing " ++ toString commands.length ++ " unused files..."]]] ++
      commands.map (fun c =>
        [(if c.tracked then ["git", "rm", "-f"] else ["rm"]) ++ [c.path]]) ++
      [[["echo", "Removal complete!"]]]) ∧
    (∀ s : String, '\x00' ∉ s.toList → Shell.read (shellQuoted s) = .ok [[[s]]]) ∧
    ∀ (root' : String) (commands' : List RemovalCommand) (made' : Option Timestamp),
      '\x00' ∉ root'.toList → (∀ c ∈ commands', '\x00' ∉ c.path.toList) →
        text root' commands' made' = text root commands made →
          root' = root ∧ commands' = commands := by
  refine ⟨read_text made hroot hcommands, fun s hs => read_shellQuoted hs, ?_⟩
  intro root' commands' made' hroot' hcommands' htext
  have hread := read_text made' hroot' hcommands'
  rw [htext, read_text made hroot hcommands, Except.ok.injEq] at hread
  obtain ⟨hr, hc⟩ := linesOf_inj hread
  exact ⟨hr.symm, hc.symm⟩

theorem text_means_hard_paths :
    '\x00' ∉ "/it's\n# \"here\"".toList ∧
      (∀ c ∈ [RemovalCommand.mk "a'$HOME `b`.css" true, ⟨"x\\\n' || #.js", false⟩],
        '\x00' ∉ c.path.toList) ∧
      Shell.read (text "/it's\n# \"here\"" [⟨"a'$HOME `b`.css", true⟩, ⟨"x\\\n' || #.js", false⟩]
        (some ⟨0, 0⟩)) = .ok
          [[["cd", "/it's\n# \"here\""], ["exit", "1"]], [["echo", "Removing 2 unused files..."]],
            [["git", "rm", "-f", "a'$HOME `b`.css"]], [["rm", "x\\\n' || #.js"]],
            [["echo", "Removal complete!"]]] := by
  have hroot : '\x00' ∉ "/it's\n# \"here\"".toList := by decide
  have hpaths : ∀ c ∈ [RemovalCommand.mk "a'$HOME `b`.css" true, ⟨"x\\\n' || #.js", false⟩],
      '\x00' ∉ c.path.toList := by decide
  refine ⟨hroot, hpaths, (text_means _ _ _ hroot hpaths).1.trans ?_⟩
  rfl

end RemovalScript

end UnusedAssets
