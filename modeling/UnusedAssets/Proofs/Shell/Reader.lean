import UnusedAssets.Proofs.Text.Joined
import UnusedAssets.Removal.Command

/-!
# Reading as a shell reads

The words and operators of a shell text, character by character: blanks end words, quotes hold
characters as they are, `#` before a word begins a comment, a line ends a command and `||` joins the
commands of a line. Escapes, expansions and all other operators are refused, so a text in which they
would count is not read at all. What is read after a text was read does not depend on how it was
read but on the mode in which it ended (`Scans.append`); after a quoted text it is the word that was
quoted (`scans_shellQuoted`).
-/

namespace UnusedAssets.Shell

open Text

inductive Fault where
  /-- The text holds a zero character. -/
  | nul
  /-- A character has a meaning that is not known here. -/
  | special (c : Char)
  /-- The text ends between quotes. -/
  | unclosed
  /-- A `||` has no command before it or none after it. -/
  | noCommand
  deriving DecidableEq, Repr

inductive Token where
  | word (text : String)
  | or
  | newline
  deriving DecidableEq, Repr

inductive Mode where
  | between
  | comment
  /-- One bar, before which no other stands. -/
  | bar
  /-- A word, outside quotes. -/
  | word (w : List Char)
  /-- A word, after a single quote that is still open. -/
  | single (w : List Char)
  /-- A word, after a double quote that is still open. -/
  | double (w : List Char)
  deriving DecidableEq, Repr

/-- The characters that do not stand for themselves outside quotes, or not always. -/
def special : List Char :=
  ['&', ';', '<', '>', '(', ')', '$', '\x60', '\\', '*', '?', '[', ']', '^', '!', '~', '=', '%',
    '{', '}']

def specialInDouble : List Char := ['$', '\x60', '\\']

/-- One character outside quotes; `w` is the word begun before it, if there is one. -/
def bare (w : Option (List Char)) (c : Char) : Except Fault (List Token × Mode) :=
  let ended : List Token := (w.map fun w => .word (String.ofList w)).toList
  if c = ' ' ∨ c = '\t' then .ok (ended, .between)
  else if c = '\n' then .ok (ended ++ [.newline], .between)
  else if c = '|' then .ok (ended, .bar)
  else if c = '\'' then .ok ([], .single (w.getD []))
  else if c = '"' then .ok ([], .double (w.getD []))
  else if c ∈ special then .error (.special c)
  else .ok ([], .word (w.getD [] ++ [c]))

/-- One character: the tokens that end with it, and what is read then. -/
def step (m : Mode) (c : Char) : Except Fault (List Token × Mode) :=
  if c = '\x00' then .error .nul
  else match m with
    | .between => if c = '#' then .ok ([], .comment) else bare none c
    | .comment => .ok (if c = '\n' then ([.newline], .between) else ([], .comment))
    | .bar => if c = '|' then .ok ([.or], .between) else .error (.special '|')
    | .word w => bare (some w) c
    | .single w => .ok ([], if c = '\'' then .word w else .single (w ++ [c]))
    | .double w =>
      if c = '"' then .ok ([], .word w)
      else if c ∈ specialInDouble then .error (.special c)
      else .ok ([], .double (w ++ [c]))

def scan : Mode → List Char → Except Fault (List Token × Mode)
  | m, [] => .ok ([], m)
  | m, c :: cs =>
    match step m c with
    | .error f => .error f
    | .ok (ts, m) =>
      match scan m cs with
      | .error f => .error f
      | .ok (us, m) => .ok (ts ++ us, m)

def finish : Mode → Except Fault (List Token)
  | .between | .comment => .ok []
  | .bar => .error (.special '|')
  | .word w => .ok [.word (String.ofList w)]
  | .single _ | .double _ => .error .unclosed

def tokens (s : String) : Except Fault (List Token) :=
  match scan .between s.toList with
  | .error f => .error f
  | .ok (ts, m) =>
    match finish m with
    | .error f => .error f
    | .ok us => .ok (ts ++ us)

def Token.text? : Token → Option String
  | .word text => some text
  | _ => none

/-- The commands of a line, each the list of its words; one after a `||` runs if those before it
fail. -/
abbrev Line := List (List String)

def lineOf (ts : List Token) : Line := (fields .or ts).map (·.filterMap Token.text?)

/-- The lines on which anything but a comment stands. -/
def lines (ts : List Token) : List Line :=
  ((fields .newline ts).filter (· ≠ [])).map lineOf

/-- The commands of a text, line by line. -/
def read (s : String) : Except Fault (List Line) :=
  match tokens s with
  | .error f => .error f
  | .ok ts =>
    let found := lines ts
    if ∃ line ∈ found, [] ∈ line then .error .noCommand else .ok found

/-- Read from one mode, a text gives some tokens and ends in another mode. -/
def Scans (m : Mode) (cs : List Char) (ts : List Token) (m' : Mode) : Prop :=
  scan m cs = .ok (ts, m')

variable {m m' m'' : Mode} {c : Char} {cs ds w : List Char} {ts us : List Token} {s t : String}

theorem Scans.nil (m : Mode) : Scans m [] [] m := rfl

theorem Scans.cons (h : step m c = .ok (ts, m')) (hcs : Scans m' cs us m'') :
    Scans m (c :: cs) (ts ++ us) m'' := by
  unfold Scans at hcs ⊢
  rw [scan, h]
  dsimp only
  rw [hcs]

theorem scans_cons_iff : Scans m (c :: cs) ts m'' ↔ ∃ ts₁ ts₂ m', step m c = .ok (ts₁, m') ∧
    Scans m' cs ts₂ m'' ∧ ts = ts₁ ++ ts₂ := by
  constructor
  · intro h
    unfold Scans at h
    rw [scan] at h
    split at h
    · exact absurd h (by simp)
    · next ts₁ m' hstep =>
      split at h
      · exact absurd h (by simp)
      · next ts₂ m₂ hscan =>
        rw [Except.ok.injEq, Prod.mk.injEq] at h
        obtain ⟨rfl, rfl⟩ := h
        exact ⟨ts₁, ts₂, m', hstep, hscan, rfl⟩
  · intro h
    obtain ⟨ts₁, ts₂, m', hstep, hscan, rfl⟩ := h
    exact hscan.cons hstep

theorem Scans.append (h : Scans m cs ts m') (h' : Scans m' ds us m'') :
    Scans m (cs ++ ds) (ts ++ us) m'' := by
  induction cs generalizing m ts with
  | nil =>
    obtain ⟨rfl, rfl⟩ : [] = ts ∧ m = m' := by simpa [Scans, scan] using h
    exact h'
  | cons c cs ih =>
    obtain ⟨ts₁, ts₂, m₁, hstep, hscan, rfl⟩ := scans_cons_iff.mp h
    rw [List.cons_append, List.append_assoc]
    exact (ih hscan).cons hstep

theorem Scans.append_text (h : Scans m s.toList ts m') (h' : Scans m' t.toList us m'') :
    Scans m (s ++ t).toList (ts ++ us) m'' := by
  rw [String.toList_append]
  exact h.append h'

abbrev FitsComment (s : String) : Prop := '\n' ∉ s.toList ∧ '\x00' ∉ s.toList

theorem FitsComment.append (h : FitsComment s) (h' : FitsComment t) : FitsComment (s ++ t) := by
  rw [FitsComment, String.toList_append, List.mem_append, List.mem_append, not_or, not_or]
  exact ⟨⟨h.1, h'.1⟩, h.2, h'.2⟩

theorem scans_comment (hline : '\n' ∉ cs) (hnul : '\x00' ∉ cs) :
    Scans .comment cs [] .comment := by
  induction cs with
  | nil => exact .nil _
  | cons c cs ih =>
    rw [List.mem_cons, not_or] at hline hnul
    have hstep : step .comment c = .ok ([], .comment) := by
      rw [step, if_neg (Ne.symm hnul.1), if_neg (Ne.symm hline.1)]
    exact (ih hline.2 hnul.2).cons hstep

theorem step_single (hquote : c ≠ '\'') (hnul : c ≠ '\x00') :
    step (.single w) c = .ok ([], .single (w ++ [c])) := by
  rw [step, if_neg hnul, if_neg hquote]

/-- Between single quotes every character but a single quote stands for itself. -/
theorem scans_single (hquote : '\'' ∉ cs) (hnul : '\x00' ∉ cs) :
    Scans (.single w) cs [] (.single (w ++ cs)) := by
  induction cs generalizing w with
  | nil =>
    rw [List.append_nil]
    exact .nil _
  | cons c cs ih =>
    rw [List.mem_cons, not_or] at hquote hnul
    have hrest := ih (w := w ++ [c]) hquote.2 hnul.2
    rw [List.append_assoc, List.singleton_append] at hrest
    exact hrest.cons (step_single (Ne.symm hquote.1) (Ne.symm hnul.1))

/-- The detour over double quotes adds a single quote to the word, so that every text can be written
between single quotes. -/
theorem scans_escaped (h : '\x00' ∉ cs) :
    Scans (.single w) (cs.flatMap fun d => if d = '\'' then "'\"'\"'".toList else [d]) []
      (.single (w ++ cs)) := by
  induction cs generalizing w with
  | nil =>
    rw [List.append_nil]
    exact .nil _
  | cons c cs ih =>
    have hc : c ≠ '\x00' := fun he => h (he ▸ List.mem_cons_self)
    have hone : Scans (.single w) (if c = '\'' then "'\"'\"'".toList else [c]) []
        (.single (w ++ [c])) := by
      by_cases hquote : c = '\''
      · subst hquote
        rfl
      · rw [if_neg hquote]
        exact (Scans.nil _).cons (step_single hquote hc)
    have hall := hone.append (ih (w := w ++ [c]) fun hm => h (List.mem_cons_of_mem _ hm))
    rwa [List.append_assoc, List.singleton_append, List.append_nil] at hall

/-- A quoted text is read as one word, that text. -/
theorem scans_shellQuoted (h : '\x00' ∉ s.toList) :
    Scans .between (shellQuoted s).toList [] (.word s.toList) := by
  have hopen : Scans .between "'".toList [] (.single []) := rfl
  have hclose : Scans (.single s.toList) "'".toList [] (.word s.toList) := rfl
  have hall := (hopen.append (scans_escaped (w := []) h)).append hclose
  have hsubstitute : (substitute s '\'' "'\"'\"'").toList =
      s.toList.flatMap fun d => if d = '\'' then "'\"'\"'".toList else [d] := String.toList_ofList
  rw [shellQuoted, String.toList_append, String.toList_append, hsubstitute]
  exact hall

theorem scans_word_blank (s : String) : Scans (.word s.toList) " ".toList [.word s] .between := by
  simp [Scans, scan, step, bare]

theorem scans_word_newline (s : String) :
    Scans (.word s.toList) "\n".toList [.word s, .newline] .between := by
  simp [Scans, scan, step, bare]

theorem scans_close_newline (s : String) :
    Scans (.single s.toList) "'\n".toList [.word s, .newline] .between := by
  simp [Scans, scan, step, bare]

section Lines

variable {ls ls' : List Line}

theorem lines_nil : lines [] = [] := rfl

theorem lines_append_newline (ts us : List Token) :
    lines (ts ++ .newline :: us) = lines ts ++ lines us := by
  rw [lines, fields_append_cons, List.filter_append, List.map_append]
  rfl

theorem lines_of_not_mem (hne : ts ≠ []) (h : .newline ∉ ts) : lines ts = [lineOf ts] := by
  simp [lines, fields_of_not_mem h, hne]

theorem lineOf_words (words : List String) : lineOf (words.map .word) = [words] := by
  rw [lineOf, fields_of_not_mem (by simp), List.map_singleton, List.filterMap_map]
  exact congrArg (fun l => [l]) (List.filterMap_some)

/-- A text that ends with a line is read as some lines, whatever comes after it. -/
def ReadsAs (s : String) (ls : List Line) : Prop :=
  ∃ ts, Scans .between s.toList ts .between ∧ ∀ us, lines (ts ++ us) = ls ++ lines us

theorem ReadsAs.nil : ReadsAs "" [] := ⟨[], .nil _, fun _ => rfl⟩

theorem ReadsAs.append (h : ReadsAs s ls) (h' : ReadsAs t ls') : ReadsAs (s ++ t) (ls ++ ls') := by
  obtain ⟨ts, hscan, hlines⟩ := h
  obtain ⟨us, hscan', hlines'⟩ := h'
  refine ⟨ts ++ us, hscan.append_text hscan', fun more => ?_⟩
  rw [List.append_assoc, hlines, hlines', List.append_assoc]

theorem readsAs_blank (h : Scans .between s.toList [.newline] .between) : ReadsAs s [] :=
  ⟨_, h, fun us => lines_append_newline [] us⟩

theorem readsAs_comment (h : FitsComment s) : ReadsAs ("#" ++ s ++ "\n") [] := by
  have hopen : Scans .between "#".toList [] .comment := rfl
  have hend : Scans .comment "\n".toList [.newline] .between := rfl
  exact readsAs_blank ((hopen.append_text (scans_comment h.1 h.2)).append_text hend)

theorem readsAs_line (ts : List Token) (h : Scans .between s.toList (ts ++ [.newline]) .between)
    (hne : ts ≠ []) (hts : .newline ∉ ts) : ReadsAs s [lineOf ts] := by
  refine ⟨_, h, fun us => ?_⟩
  rw [List.append_assoc, List.singleton_append, lines_append_newline, lines_of_not_mem hne hts]

theorem read_of_readsAs (h : ReadsAs s ls) (hls : ∀ line ∈ ls, [] ∉ line) :
    read s = .ok ls := by
  obtain ⟨ts, hscan, hlines⟩ := h
  have htokens : tokens s = .ok ts := by
    unfold Scans at hscan
    simp [tokens, hscan, finish]
  have hts := hlines []
  rw [lines_nil, List.append_nil, List.append_nil] at hts
  rw [read, htokens]
  dsimp only
  rw [hts, if_neg]
  intro hempty
  obtain ⟨line, hline, hmem⟩ := hempty
  exact hls line hline hmem

end Lines

/-- A text that ends with a word is read as one command. -/
theorem read_of_scans (words : List String)
    (h : Scans .between s.toList (words.map .word) (.word t.toList)) :
    read s = .ok [[words ++ [t]]] := by
  have htokens : tokens s = .ok ((words ++ [t]).map .word) := by
    unfold Scans at h
    simp [tokens, h, finish]
  have hlines : lines ((words ++ [t]).map .word) = [[words ++ [t]]] := by
    rw [lines_of_not_mem (by simp) (by simp), lineOf_words]
  rw [read, htokens]
  dsimp only
  rw [hlines, if_neg]
  simp

/-- Reading takes quotes off: a quoted text is read as the one word that was quoted. -/
theorem read_shellQuoted (h : '\x00' ∉ s.toList) : read (shellQuoted s) = .ok [[[s]]] :=
  read_of_scans [] (scans_shellQuoted h)

end UnusedAssets.Shell
