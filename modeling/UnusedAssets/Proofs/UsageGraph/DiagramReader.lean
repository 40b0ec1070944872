import UnusedAssets.Proofs.Text.Joined
import UnusedAssets.Proofs.Text.Substitution
import UnusedAssets.UsageGraph.Diagram

/-!
# Reading diagrams

A text in the DOT language read character by character into tokens, and its statements from these.
Between quotes a backslash takes the next character as it is, so that a quoted name is read back
whatever stands in it (`reads_quoted`). Of the language only what makes up directed graphs with nodes,
edges and attributes is known; comments, ports, chains of edges and graphs inside graphs are refused.
-/

namespace UnusedAssets.Dot

open Text

inductive Token where
  /-- A bare word. -/
  | word (s : String)
  /-- A name between quotes. -/
  | name (s : String)
  | arrow
  | mark (c : Char)
  deriving DecidableEq, Repr

inductive Mode where
  | between
  | word (w : List Char)
  /-- A hyphen, with which an arrow begins. -/
  | hyphen
  | name (w : List Char)
  /-- A name, after a backslash. -/
  | escape (w : List Char)
  deriving DecidableEq, Repr

structure Reading where
  /-- The tokens that have been read, the last one first. -/
  tokens : List Token
  mode : Mode
  deriving DecidableEq, Repr

def marks : List Char := ['{', '}', '[', ']', '=', ',', ';']

def isWordChar (c : Char) : Bool := c.isAlphanum || c = '_'

def bare (ts : List Token) (c : Char) : Option Reading :=
  if c = ' ' ∨ c = '\t' ∨ c = '\n' then some ⟨ts, .between⟩
  else if c = '"' then some ⟨ts, .name []⟩
  else if c = '-' then some ⟨ts, .hyphen⟩
  else if c ∈ marks then some ⟨.mark c :: ts, .between⟩
  else if isWordChar c then some ⟨ts, .word [c]⟩
  else none

def step : Reading → Char → Option Reading
  | ⟨ts, .between⟩, c => bare ts c
  | ⟨ts, .word w⟩, c =>
    if isWordChar c then some ⟨ts, .word (w ++ [c])⟩ else bare (.word (String.ofList w) :: ts) c
  | ⟨ts, .hyphen⟩, c => if c = '>' then some ⟨.arrow :: ts, .between⟩ else none
  | ⟨ts, .name w⟩, c =>
    if c = '"' then some ⟨.name (String.ofList w) :: ts, .between⟩
    else if c = '\\' then some ⟨ts, .escape w⟩
    else some ⟨ts, .name (w ++ [c])⟩
  | ⟨ts, .escape w⟩, c => some ⟨ts, .name (w ++ [c])⟩

/-- All tokens of a text, if it does not end inside one. -/
def tokens? (s : String) : Option (List Token) :=
  match s.toList.foldlM step ⟨[], .between⟩ with
  | some ⟨ts, .between⟩ => some ts.reverse
  | _ => none

def Token.text? : Token → Option String
  | .word s | .name s => some s
  | _ => none

def attribute? : List Token → Option (String × String)
  | [a, .mark '=', v] => a.text?.bind fun a => v.text?.map fun v => (a, v)
  | _ => none

/-- The attributes between brackets; none if there are no brackets. -/
def attributes? : List Token → Option (List (String × String))
  | [] => some []
  | .mark '[' :: ts =>
    if ts.getLast? = some (.mark ']') then (fields (.mark ',') ts.dropLast).mapM attribute?
    else none
  | _ => none

inductive Statement where
  /-- An attribute of the whole graph, or attributes of all nodes or all edges. -/
  | setting
  | node (name : String) (attributes : List (String × String))
  | edge (source target : String) (attributes : List (String × String))
  deriving DecidableEq, Repr

def statement? : List Token → Option Statement
  | .name a :: .arrow :: .name b :: ts => (attributes? ts).map (.edge a b)
  | .name a :: ts => (attributes? ts).map (.node a)
  | [.word a, .mark '=', v] => (attribute? [.word a, .mark '=', v]).map fun _ => .setting
  | .word a :: ts =>
    if a = "graph" ∨ a = "node" ∨ a = "edge" then (attributes? ts).map fun _ => .setting else none
  | _ => none

/-- The statements of a graph, each ended by a semicolon. -/
def statements? : List (List Token) → Option (List Statement)
  | [] => none
  | [ts] => if ts = [.mark '}'] then some [] else none
  | ts :: next :: rest =>
    (statement? ts).bind fun s => (statements? (next :: rest)).map fun ss => s :: ss

/-- What the statements of a graph tell of its nodes and edges, in their order. -/
structure Drawing where
  /-- The name and the attributes of each node. -/
  nodes : List (String × List (String × String))
  /-- The source and the target of each edge. -/
  edges : List (String × String)
  deriving DecidableEq, Repr

def Statement.node? : Statement → Option (String × List (String × String))
  | .node name attributes => some (name, attributes)
  | _ => none

def Statement.edge? : Statement → Option (String × String)
  | .edge source target _ => some (source, target)
  | _ => none

def drawing (ss : List Statement) : Drawing :=
  ⟨ss.filterMap Statement.node?, ss.filterMap Statement.edge?⟩

def read (s : String) : Option Drawing :=
  match tokens? s with
  | some (.word "digraph" :: .word _ :: .mark '{' :: ts) =>
    (statements? (fields (.mark ';') ts)).map drawing
  | _ => none

/-- From one reading, a text leads to another. -/
def Reads (r : Reading) (cs : List Char) (r' : Reading) : Prop := cs.foldlM step r = some r'

variable {r r' r'' : Reading} {cs cs' : List Char} {s t : String} {ts us : List Token}

theorem Reads.append (h : Reads r cs r') (h' : Reads r' cs' r'') : Reads r (cs ++ cs') r'' := by
  unfold Reads at h h' ⊢
  rw [List.foldlM_append, h]
  exact h'

theorem Reads.append_text (h : Reads r s.toList r') (h' : Reads r' t.toList r'') :
    Reads r (s ++ t).toList r'' := by
  rw [String.toList_append]
  exact h.append h'

def escaped (c : Char) : List Char :=
  if c = '\\' then ['\\', '\\'] else if c = '"' then ['\\', '"'] else [c]

theorem toList_quoted (s : String) :
    (Diagram.quoted s).toList = '"' :: (s.toList.flatMap escaped ++ ['"']) := by
  have hescaped : ∀ c, ((if c = '\\' then "\\\\".toList else [c]).flatMap fun d =>
      if d = '"' then "\\\"".toList else [d]) = escaped c := by
    intro c
    by_cases hslash : c = '\\'
    · subst hslash
      rfl
    · simp [escaped, hslash]
  rw [Diagram.quoted, String.toList_append, String.toList_append, toList_substitute,
    toList_substitute, List.flatMap_assoc]
  simp only [hescaped]
  rfl

theorem reads_escaped (ts : List Token) (w : List Char) (c : Char) :
    Reads ⟨ts, .name w⟩ (escaped c) ⟨ts, .name (w ++ [c])⟩ := by
  by_cases hslash : c = '\\'
  · subst hslash
    rfl
  · by_cases hquote : c = '"'
    · subst hquote
      rfl
    · simp [Reads, escaped, step, hslash, hquote]

theorem reads_name (ts : List Token) (w cs : List Char) :
    Reads ⟨ts, .name w⟩ (cs.flatMap escaped) ⟨ts, .name (w ++ cs)⟩ := by
  induction cs generalizing w with
  | nil =>
    rw [List.append_nil]
    rfl
  | cons c cs ih =>
    have hall := (reads_escaped ts w c).append (ih (w ++ [c]))
    rwa [List.append_assoc, List.singleton_append] at hall

/-- A quoted name is read as that name. -/
theorem reads_quoted (ts : List Token) (s : String) :
    Reads ⟨ts, .between⟩ (Diagram.quoted s).toList ⟨.name s :: ts, .between⟩ := by
  have hopen : Reads ⟨ts, .between⟩ ['"'] ⟨ts, .name []⟩ := rfl
  have hclose : Reads ⟨ts, .name s.toList⟩ ['"'] ⟨.name s :: ts, .between⟩ := by
    simp [Reads, step]
  rw [toList_quoted]
  exact hopen.append ((reads_name ts [] s.toList).append hclose)

example : tokens? "\"a\\\\b\\\" -> c;\" -> \"d\";" =
    some [.name "a\\b\" -> c;", .arrow, .name "d", .mark ';'] := by decide

/-- A text between tokens is read as some tokens, whatever was read before it. -/
def ReadsAs (s : String) (us : List Token) : Prop :=
  ∀ ts, Reads ⟨ts, .between⟩ s.toList ⟨us.reverse ++ ts, .between⟩

theorem readsAs_quoted (s : String) : ReadsAs (Diagram.quoted s) [.name s] := fun ts =>
  reads_quoted ts s

theorem ReadsAs.append (h : ReadsAs s ts) (h' : ReadsAs t us) : ReadsAs (s ++ t) (ts ++ us) := by
  intro before
  rw [List.reverse_append, List.append_assoc]
  exact (h before).append_text (h' _)

theorem readsAs_join {α : Type} {line : α → String} {tokens : α → List Token}
    (h : ∀ x, ReadsAs (line x) (tokens x)) (xs : List α) :
    ReadsAs (String.join (xs.map line)) (xs.flatMap tokens) := by
  induction xs with
  | nil => exact fun ts => rfl
  | cons x xs ih =>
    rw [List.map_cons, String.join_cons, List.flatMap_cons]
    exact (h x).append ih

theorem tokens?_of_readsAs (h : ReadsAs s ts) : tokens? s = some ts := by
  have hreads := h []
  unfold Reads at hreads
  rw [tokens?, hreads, List.append_nil]
  exact congrArg some ts.reverse_reverse

section Statements

variable {ss : List Statement}

/-- What stands before a semicolon is one statement, and the others are behind it. -/
theorem statements?_cons {st : Statement} (hts : .mark ';' ∉ ts) (hst : statement? ts = some st)
    (hus : statements? (fields (.mark ';') us) = some ss) :
    statements? (fields (.mark ';') (ts ++ .mark ';' :: us)) = some (st :: ss) := by
  rw [fields_append_cons, fields_of_not_mem hts]
  cases hfields : fields (.mark ';') us with
  | nil => exact absurd hfields (fields_ne_nil _ us)
  | cons next rest =>
    rw [hfields] at hus
    simp [statements?, hst, hus]

theorem statements?_flatMap {α : Type} {tokens : α → List Token} {statement : α → Statement}
    (htokens : ∀ x, .mark ';' ∉ tokens x) (hst : ∀ x, statement? (tokens x) = some (statement x))
    (hus : statements? (fields (.mark ';') us) = some ss) (xs : List α) :
    statements? (fields (.mark ';') ((xs.flatMap fun x => tokens x ++ [.mark ';']) ++ us)) =
      some (xs.map statement ++ ss) := by
  induction xs with
  | nil => exact hus
  | cons x xs ih =>
    rw [List.flatMap_cons, List.append_assoc, List.append_assoc]
    exact statements?_cons (htokens x) (hst x) ih

end Statements

end UnusedAssets.Dot
