import UnusedAssets.Report.Json

/-!
# Reading JSON documents

A text read as one JSON document, character by character, with the arrays and objects that are still
open on a stack. Numbers with a sign, a fraction or an exponent, the three literals and escaped
surrogates are refused: no report has them. A value that was printed reads back, whatever its texts
hold (`read_pretty`), so a printed text is one document and tells its value.
-/

namespace UnusedAssets.JsonText

open Text

inductive Token where
  | text (s : String)
  | count (n : Nat)
  | openArray
  | closeArray
  | openObject
  | closeObject
  | comma
  | colon
  deriving DecidableEq, Repr

inductive Frame where
  | array (elements : List Json)
  /-- The name is that of the member whose value is read. -/
  | object (members : List (String × Json)) (name : String)

inductive Due where
  | value (fs : List Frame)
  /-- The first element of an array, or its end. -/
  | firstElement (fs : List Frame)
  /-- The first name of an object, or its end. -/
  | firstName (fs : List Frame)
  | name (members : List (String × Json)) (fs : List Frame)
  | colon (members : List (String × Json)) (name : String) (fs : List Frame)
  /-- What follows a value that has been read. -/
  | after (v : Json) (fs : List Frame)

def begin? (fs : List Frame) : Token → Option Due
  | .text s => some (.after (.text s) fs)
  | .count n => some (.after (.count n) fs)
  | .openArray => some (.firstElement fs)
  | .openObject => some (.firstName fs)
  | _ => none

/-- One token, and what comes next then. -/
def Due.accept : Due → Token → Option Due
  | .value fs, t => begin? fs t
  | .firstElement fs, .closeArray => some (.after (.array []) fs)
  | .firstElement fs, t => begin? (.array [] :: fs) t
  | .firstName fs, .closeObject => some (.after (.object []) fs)
  | .firstName fs, .text s => some (.colon [] s fs)
  | .name ms fs, .text s => some (.colon ms s fs)
  | .colon ms s fs, .colon => some (.value (.object ms s :: fs))
  | .after v (.array vs :: fs), .comma => some (.value (.array (vs ++ [v]) :: fs))
  | .after v (.array vs :: fs), .closeArray => some (.after (.array (vs ++ [v])) fs)
  | .after v (.object ms s :: fs), .comma => some (.name (ms ++ [(s, v)]) fs)
  | .after v (.object ms s :: fs), .closeObject => some (.after (.object (ms ++ [(s, v)])) fs)
  | _, _ => none

inductive Mode where
  | between
  | count (n : Nat)
  | text (w : List Char)
  /-- A text, after a backslash. -/
  | escape (w : List Char)
  /-- A text, after some of the four digits of a character. -/
  | code (w : List Char) (n left : Nat)

structure Reading where
  due : Due
  mode : Mode

def mark? : Char → Option Token
  | '[' => some .openArray
  | ']' => some .closeArray
  | '{' => some .openObject
  | '}' => some .closeObject
  | ',' => some .comma
  | ':' => some .colon
  | _ => none

def unescaped? : Char → Option Char
  | '"' => some '"'
  | '\\' => some '\\'
  | '/' => some '/'
  | 'b' => some '\x08'
  | 't' => some '\t'
  | 'n' => some '\n'
  | 'f' => some '\x0c'
  | 'r' => some '\r'
  | _ => none

def isBlank (c : Char) : Bool := c = ' ' || c = '\t' || c = '\n' || c = '\r'

def bare (d : Due) (c : Char) : Option Reading :=
  if isBlank c then some ⟨d, .between⟩
  else if c = '"' then some ⟨d, .text []⟩
  else if c.isDigit then some ⟨d, .count (c.toNat - 48)⟩
  else ((mark? c).bind d.accept).map fun d => ⟨d, .between⟩

/-- One character. A number ends with the first character that is no digit, and has no zero before
other digits. -/
def step : Reading → Char → Option Reading
  | ⟨d, .between⟩, c => bare d c
  | ⟨d, .count n⟩, c =>
    if c.isDigit then if n = 0 then none else some ⟨d, .count (10 * n + (c.toNat - 48))⟩
    else (d.accept (.count n)).bind fun d => bare d c
  | ⟨d, .text w⟩, c =>
    if c = '"' then (d.accept (.text (String.ofList w))).map fun d => ⟨d, .between⟩
    else if c = '\\' then some ⟨d, .escape w⟩
    else if c.toNat < 32 then none
    else some ⟨d, .text (w ++ [c])⟩
  | ⟨d, .escape w⟩, c =>
    if c = 'u' then some ⟨d, .code w 0 4⟩
    else (unescaped? c).map fun e => ⟨d, .text (w ++ [e])⟩
  | ⟨d, .code w n left⟩, c =>
    (Hex.value? c).bind fun v =>
      let n := n * 16 + v
      if 1 < left then some ⟨d, .code w n (left - 1)⟩
      else if 0xD800 ≤ n ∧ n ≤ 0xDFFF then none
      else some ⟨d, .text (w ++ [Char.ofNat n])⟩

/-- The document that a text is. A line end is read behind it, with which a number ends. -/
def read (s : String) : Option Json :=
  match (s.toList ++ ['\n']).foldlM step ⟨.value [], .between⟩ with
  | some ⟨.after v [], .between⟩ => some v
  | _ => none

/-- From one reading, a text leads to another. -/
def Reads (r : Reading) (cs : List Char) (r' : Reading) : Prop := cs.foldlM step r = some r'

variable {r r' r'' : Reading} {d d' : Due} {fs : List Frame} {c : Char} {cs cs' w : List Char}
  {s t : String} {v : Json}

theorem Reads.append (h : Reads r cs r') (h' : Reads r' cs' r'') : Reads r (cs ++ cs') r'' := by
  unfold Reads at h h' ⊢
  rw [List.foldlM_append, h]
  exact h'

theorem Reads.append_text (h : Reads r s.toList r') (h' : Reads r' t.toList r'') :
    Reads r (s ++ t).toList r'' := by
  rw [String.toList_append]
  exact h.append h'

theorem Reads.cons (h : step r c = some r') (h' : Reads r' cs r'') : Reads r (c :: cs) r'' := by
  unfold Reads at h' ⊢
  rw [List.foldlM_cons, h]
  exact h'

theorem reads_single (h : step r c = some r') : Reads r [c] r' := Reads.cons h rfl

theorem reads_newline (d : Due) (level : Nat) :
    Reads ⟨d, .between⟩ (Json.newline level).toList ⟨d, .between⟩ := by
  have hindent : Reads ⟨d, .between⟩ (String.join (List.replicate level "  ")).toList
      ⟨d, .between⟩ := by
    induction level with
    | zero => rfl
    | succ level ih =>
      have hblanks : Reads ⟨d, .between⟩ "  ".toList ⟨d, .between⟩ := rfl
      rw [List.replicate_succ, String.join_cons]
      exact hblanks.append_text ih
  have hend : Reads ⟨d, .between⟩ "\n".toList ⟨d, .between⟩ := rfl
  exact hend.append_text hindent

/-- A printed character is one of the short escapes, an escape by digits, or itself. -/
theorem escaped_cases (c : Char) :
    (∃ e, e ≠ 'u' ∧ unescaped? e = some c ∧ Json.escaped c = ['\\', e]) ∨
      (c.toNat < 32 ∧ Json.escaped c =
        ['\\', 'u', '0', '0', Hex.digit (c.toNat / 16), Hex.digit (c.toNat % 16)]) ∨
      (c ≠ '"' ∧ c ≠ '\\' ∧ ¬ c.toNat < 32 ∧ Json.escaped c = [c]) := by
  by_cases hshort : c ∈ ['"', '\\', '\x08', '\t', '\n', '\x0c', '\r']
  · simp only [List.mem_cons, List.not_mem_nil, or_false] at hshort
    rcases hshort with rfl | rfl | rfl | rfl | rfl | rfl | rfl
    · exact .inl ⟨'"', by decide, rfl, rfl⟩
    · exact .inl ⟨'\\', by decide, rfl, rfl⟩
    · exact .inl ⟨'b', by decide, rfl, rfl⟩
    · exact .inl ⟨'t', by decide, rfl, rfl⟩
    · exact .inl ⟨'n', by decide, rfl, rfl⟩
    · exact .inl ⟨'f', by decide, rfl, rfl⟩
    · exact .inl ⟨'r', by decide, rfl, rfl⟩
  · simp only [List.mem_cons, List.not_mem_nil, or_false, not_or] at hshort
    obtain ⟨hquote, hslash, hback, htab, hline, hfeed, hreturn⟩ := hshort
    simp only [Json.escaped, hquote, hslash, hback, htab, hline, hfeed, hreturn, ↓reduceIte]
    by_cases hlow : c.toNat < 32
    · exact .inr (.inl ⟨hlow, if_pos hlow⟩)
    · exact .inr (.inr ⟨hquote, hslash, hlow, if_neg hlow⟩)

/-- Escaped or not, a character of a printed text is read as that character. -/
theorem reads_escaped (d : Due) (w : List Char) (c : Char) :
    Reads ⟨d, .text w⟩ (Json.escaped c) ⟨d, .text (w ++ [c])⟩ := by
  have hescape : step ⟨d, .text w⟩ '\\' = some ⟨d, .escape w⟩ := rfl
  rcases escaped_cases c with ⟨e, hu, he, hshort⟩ | ⟨hlow, hdigits⟩ | ⟨hquote, hslash, hlow, hself⟩
  · rw [hshort]
    exact .cons hescape (reads_single (by simp [step, hu, he]))
  · have hhigh := Hex.value?_digit (c.toNat / 16) (by omega)
    have hunit := Hex.value?_digit (c.toNat % 16) (by omega)
    have hvalue : c.toNat / 16 * 16 + c.toNat % 16 = c.toNat := by omega
    have hplain : ¬ (0xD800 ≤ c.toNat ∧ c.toNat ≤ 0xDFFF) := by omega
    have hzeros : Reads ⟨d, .escape w⟩ ['u', '0', '0'] ⟨d, .code w 0 2⟩ := rfl
    have hfirst : step ⟨d, .code w 0 2⟩ (Hex.digit (c.toNat / 16)) =
        some ⟨d, .code w (c.toNat / 16) 1⟩ := by simp [step, hhigh]
    have hlast : step ⟨d, .code w (c.toNat / 16) 1⟩ (Hex.digit (c.toNat % 16)) =
        some ⟨d, .text (w ++ [c])⟩ := by
      simp only [step, hunit, Option.bind_some, hvalue, Nat.lt_irrefl, ↓reduceIte, hplain,
        Char.ofNat_toNat]
    rw [hdigits]
    exact .cons hescape (hzeros.append (.cons hfirst (reads_single hlast)))
  · rw [hself]
    exact reads_single (by simp [step, hquote, hslash, hlow])

theorem reads_text (d : Due) (w cs : List Char) :
    Reads ⟨d, .text w⟩ (cs.flatMap Json.escaped) ⟨d, .text (w ++ cs)⟩ := by
  induction cs generalizing w with
  | nil => rw [List.append_nil]; rfl
  | cons c cs ih =>
    have hall := (reads_escaped d w c).append (ih (w ++ [c]))
    rwa [List.append_assoc, List.singleton_append] at hall

theorem reads_quoted (h : d.accept (.text s) = some d') :
    Reads ⟨d, .between⟩ (Json.quoted s).toList ⟨d', .between⟩ := by
  have hquote : "\"".toList = ['"'] := rfl
  have hopen : Reads ⟨d, .between⟩ ['"'] ⟨d, .text []⟩ := rfl
  have hclose : Reads ⟨d, .text s.toList⟩ ['"'] ⟨d', .between⟩ :=
    reads_single (by simp [step, h])
  rw [Json.quoted, String.toList_append, String.toList_append, hquote, String.toList_ofList]
  exact (hopen.append (reads_text d [] s.toList)).append hclose

theorem isDigit_digitChar : ∀ n < 10, n.digitChar.isDigit = true ∧
    n.digitChar.toNat - 48 = n := by decide

theorem isBlank_eq_false (h : c.isDigit = true) : isBlank c = false ∧ c ≠ '"' := by
  constructor
  · rw [← Bool.not_eq_true]
    intro hblank
    simp only [isBlank, Bool.or_eq_true, decide_eq_true_eq] at hblank
    rcases hblank with ((rfl | rfl) | rfl) | rfl <;> exact absurd h (by decide)
  · rintro rfl
    exact absurd h (by decide)

theorem reads_toString (d : Due) (n : Nat) :
    Reads ⟨d, .between⟩ (toString n).toList ⟨d, .count n⟩ := by
  rw [Nat.toString_eq_ofList_toDigits, String.toList_ofList]
  induction n using Nat.strongRecOn with
  | ind n ih =>
    by_cases hn : n < 10
    · obtain ⟨hdigit, hvalue⟩ := isDigit_digitChar n hn
      obtain ⟨hblank, hquote⟩ := isBlank_eq_false hdigit
      rw [Nat.toDigits_of_lt_base hn]
      exact reads_single (by simp [step, bare, hblank, hquote, hdigit, hvalue])
    · obtain ⟨hdigit, hvalue⟩ := isDigit_digitChar (n % 10) (by omega)
      have hzero : n / 10 ≠ 0 := by omega
      have hall : 10 * (n / 10) + n % 10 = n := by omega
      rw [Nat.toDigits_of_base_le (by decide) (by omega)]
      refine (ih (n / 10) (by omega)).append (reads_single ?_)
      simp [step, hdigit, hvalue, hzero, hall]

/-- A reading that goes on like another one between tokens, unless a digit follows. -/
def Settles (r : Reading) (d : Due) : Prop := ∀ c, c.isDigit = false → step r c = bare d c

theorem settles_between (d : Due) : Settles ⟨d, .between⟩ d := fun _ _ => rfl

theorem settles_count {n : Nat} (h : d.accept (.count n) = some d') :
    Settles ⟨d, .count n⟩ d' := by
  intro c hc
  simp [step, hc, h]

theorem Settles.reads (h : Settles r d) (hc : c.isDigit = false)
    (hreads : Reads ⟨d, .between⟩ (c :: cs) r') : Reads r (c :: cs) r' := by
  unfold Reads at hreads ⊢
  rw [List.foldlM_cons] at hreads ⊢
  rwa [h c hc]

/-- What comes next, that a value may begin with which the arrays and objects `fs` go on. -/
def Admits (d : Due) (fs : List Frame) : Prop :=
  ∀ t, t ≠ .closeArray → d.accept t = begin? fs t

theorem admits_value (fs : List Frame) : Admits (.value fs) fs := fun _ _ => rfl

theorem admits_firstElement (fs : List Frame) :
    Admits (.firstElement fs) (.array [] :: fs) := by
  intro t ht
  cases t with
  | closeArray => exact absurd rfl ht
  | _ => rfl

theorem Settles.reads_text (h : Settles r d) (c : Char) (hc : c.isDigit = false)
    (hs : s.toList.head? = some c) (hreads : Reads ⟨d, .between⟩ s.toList r') :
    Reads r s.toList r' := by
  obtain ⟨cs, hcs⟩ := List.head?_eq_some_iff.mp hs
  rw [hcs] at hreads ⊢
  exact h.reads hc hreads

theorem Settles.reads_newline (h : Settles r d) (level : Nat)
    (hend : Reads ⟨d, .between⟩ s.toList r') : Reads r (Json.newline level ++ s).toList r' :=
  h.reads_text '\n' (by decide) (by simp [Json.newline])
    ((JsonText.reads_newline d level).append_text hend)

theorem reads_mark {t : Token} (hc : mark? c = some t) (h : d.accept t = some d')
    (hplain : isBlank c = false ∧ c ≠ '"' ∧ c.isDigit = false) :
    Reads ⟨d, .between⟩ [c] ⟨d', .between⟩ := by
  obtain ⟨hblank, hquote, hdigit⟩ := hplain
  exact reads_single (by simp [step, bare, hblank, hquote, hdigit, hc, h])

/-- A value is read wherever one may begin, at any level. -/
def ReadsBack (v : Json) : Prop := ∀ level d fs, Admits d fs →
  ∃ r, Reads ⟨d, .between⟩ (Json.prettyAt level v).toList r ∧ Settles r (.after v fs)

/-- Elements are read behind the first ones of an array, up to its end. -/
def ElementsReadBack (vs : List Json) : Prop := ∀ level r v done fs,
  Settles r (.after v (.array done :: fs)) →
    Reads r (Json.elementsAt (level + 1) vs ++ (Json.newline level ++ "]")).toList
      ⟨.after (.array (done ++ v :: vs)) fs, .between⟩

/-- Members are read behind the first ones of an object, up to its end. -/
def MembersReadBack (ms : List (String × Json)) : Prop := ∀ level r v done name fs,
  Settles r (.after v (.object done name :: fs)) →
    Reads r (Json.membersAt (level + 1) ms ++ (Json.newline level ++ "\x7d")).toList
      ⟨.after (.object (done ++ (name, v) :: ms)) fs, .between⟩

theorem Admits.reads_array (h : Admits d fs) :
    Reads ⟨d, .between⟩ "[".toList ⟨.firstElement fs, .between⟩ :=
  reads_mark (c := '[') rfl (h .openArray (by simp)) (by decide)

theorem Admits.reads_object (h : Admits d fs) :
    Reads ⟨d, .between⟩ "\x7b".toList ⟨.firstName fs, .between⟩ :=
  reads_mark (c := '{') rfl (h .openObject (by simp)) (by decide)

theorem readsBack_array {vs : List Json} (h : ReadsBack v) (hvs : ElementsReadBack vs) :
    ReadsBack (.array (v :: vs)) := by
  intro level d fs hd
  refine ⟨⟨.after (.array (v :: vs)) fs, .between⟩, ?_, settles_between _⟩
  obtain ⟨r, hfirst, hr⟩ := h (level + 1) _ _ (admits_firstElement fs)
  have hopen := hd.reads_array.append_text (reads_newline _ (level + 1))
  have hall := (hopen.append_text hfirst).append_text (hvs level r v [] fs hr)
  rw [Json.prettyAt]
  simpa only [String.append_assoc, List.nil_append] using hall

theorem elementsReadBack_cons {w : Json} {vs : List Json} (h : ReadsBack w)
    (hvs : ElementsReadBack vs) : ElementsReadBack (w :: vs) := by
  intro level r v done fs hr
  have hcomma : Reads ⟨.after v (.array done :: fs), .between⟩ ",".toList
      ⟨.value (.array (done ++ [v]) :: fs), .between⟩ := rfl
  obtain ⟨r', hnext, hr'⟩ := h (level + 1) _ _ (admits_value _)
  have hopen := hcomma.append_text (reads_newline _ (level + 1))
  have hall := (hopen.append_text hnext).append_text (hvs level r' w (done ++ [v]) fs hr')
  rw [List.append_assoc, List.singleton_append] at hall
  rw [Json.elementsAt]
  simp only [String.append_assoc] at hall ⊢
  exact hr.reads_text ',' (by decide) (by simp) hall

theorem readsBack_object {name : String} {ms : List (String × Json)} (h : ReadsBack v)
    (hms : MembersReadBack ms) : ReadsBack (.object ((name, v) :: ms)) := by
  intro level d fs hd
  refine ⟨⟨.after (.object ((name, v) :: ms)) fs, .between⟩, ?_, settles_between _⟩
  have hname : Reads ⟨.firstName fs, .between⟩ (Json.quoted name).toList
      ⟨.colon [] name fs, .between⟩ := reads_quoted rfl
  have hcolon : Reads ⟨.colon [] name fs, .between⟩ ": ".toList
      ⟨.value (.object [] name :: fs), .between⟩ := rfl
  obtain ⟨r, hfirst, hr⟩ := h (level + 1) _ _ (admits_value (.object [] name :: fs))
  have hopen := hd.reads_object.append_text (reads_newline _ (level + 1))
  have hmember := ((hopen.append_text hname).append_text hcolon).append_text hfirst
  have hall := hmember.append_text (hms level r v [] name fs hr)
  rw [Json.prettyAt]
  simpa only [String.append_assoc, List.nil_append] using hall

theorem membersReadBack_cons {next : String} {w : Json} {ms : List (String × Json)}
    (h : ReadsBack w) (hms : MembersReadBack ms) : MembersReadBack ((next, w) :: ms) := by
  intro level r v done name fs hr
  have hcomma : Reads ⟨.after v (.object done name :: fs), .between⟩ ",".toList
      ⟨.name (done ++ [(name, v)]) fs, .between⟩ := rfl
  have hname : Reads ⟨.name (done ++ [(name, v)]) fs, .between⟩ (Json.quoted next).toList
      ⟨.colon (done ++ [(name, v)]) next fs, .between⟩ := reads_quoted rfl
  have hcolon : Reads ⟨.colon (done ++ [(name, v)]) next fs, .between⟩ ": ".toList
      ⟨.value (.object (done ++ [(name, v)]) next :: fs), .between⟩ := rfl
  obtain ⟨r', hnext, hr'⟩ := h (level + 1) _ _ (admits_value _)
  have hopen := (hcomma.append_text (reads_newline _ (level + 1))).append_text hname
  have hmember := (hopen.append_text hcolon).append_text hnext
  have hall := hmember.append_text (hms level r' w (done ++ [(name, v)]) next fs hr')
  rw [List.append_assoc, List.singleton_append] at hall
  rw [Json.membersAt]
  simp only [String.append_assoc] at hall ⊢
  exact hr.reads_text ',' (by decide) (by simp) hall

theorem readsBack_count (n : Nat) : ReadsBack (.count n) := fun _ d _ hd =>
  ⟨_, reads_toString d n, settles_count (hd _ (by simp))⟩

theorem readsBack_text (s : String) : ReadsBack (.text s) := fun _ _ _ hd =>
  ⟨_, reads_quoted (hd _ (by simp)), settles_between _⟩

theorem readsBack_emptyArray : ReadsBack (.array []) := by
  intro level d fs hd
  have hclose : Reads ⟨.firstElement fs, .between⟩ "]".toList
      ⟨.after (.array []) fs, .between⟩ := rfl
  have hall := hd.reads_array.append_text hclose
  rw [Json.prettyAt]
  exact ⟨_, hall, settles_between _⟩

theorem readsBack_emptyObject : ReadsBack (.object []) := by
  intro level d fs hd
  have hclose : Reads ⟨.firstName fs, .between⟩ "\x7d".toList
      ⟨.after (.object []) fs, .between⟩ := rfl
  have hall := hd.reads_object.append_text hclose
  rw [Json.prettyAt]
  exact ⟨_, hall, settles_between _⟩

theorem elementsReadBack_nil : ElementsReadBack [] := fun level _ _ _ _ hr =>
  hr.reads_newline level rfl

theorem membersReadBack_nil : MembersReadBack [] := fun level _ _ _ _ _ hr =>
  hr.reads_newline level rfl

mutual

theorem readsBack : ∀ v : Json, ReadsBack v
  | .count n => readsBack_count n
  | .text s => readsBack_text s
  | .array [] => readsBack_emptyArray
  | .array (v :: vs) => readsBack_array (readsBack v) (elementsReadBack vs)
  | .object [] => readsBack_emptyObject
  | .object ((_, v) :: ms) => readsBack_object (readsBack v) (membersReadBack ms)

theorem elementsReadBack : ∀ vs : List Json, ElementsReadBack vs
  | [] => elementsReadBack_nil
  | v :: vs => elementsReadBack_cons (readsBack v) (elementsReadBack vs)

theorem membersReadBack : ∀ ms : List (String × Json), MembersReadBack ms
  | [] => membersReadBack_nil
  | (_, v) :: ms => membersReadBack_cons (readsBack v) (membersReadBack ms)

end

/-- A printed text is one document, the value that was printed. -/
theorem read_pretty (v : Json) : read v.pretty = some v := by
  obtain ⟨r, hreads, hr⟩ := readsBack v 0 _ _ (admits_value [])
  have hend : Reads r ['\n'] ⟨.after v [], .between⟩ := hr.reads (by decide) rfl
  have hall : Reads ⟨.value [], .between⟩ (v.pretty.toList ++ ['\n']) ⟨.after v [], .between⟩ :=
    hreads.append hend
  unfold Reads at hall
  rw [read, hall]

example : (read "[1] [2]").isNone = true := by decide

end UnusedAssets.JsonText
