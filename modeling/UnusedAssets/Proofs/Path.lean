import UnusedAssets.Listing
import UnusedAssets.Proofs.Text.Affix
import UnusedAssets.Proofs.Text.Encoded

/-!
# Paths of names

What a path is made of after names were put behind it: the parts of the path and then the names
(`parts_pathBelow`), and below the path just the names, read as texts (`relativeTo?_pathBelow`). All
this holds however the path in front is spelled. The text of some names tells the text of each
(`split_textOf`), and the names themselves if nothing was replaced in it (`textOf_inj`).
-/

namespace UnusedAssets

open Text
open UnusedAssets.Path (slash)

namespace IsName

variable {name : Bytes}

theorem not_mem_slash (h : IsName name) : slash ∉ name := h.2.2.2.1

theorem isAbsolute (h : IsName name) : Path.isAbsolute name = false := by
  rw [Path.isAbsolute, ← Bool.not_eq_true, List.isPrefixOf_iff_prefix]
  exact fun habs => h.not_mem_slash (habs.subset List.mem_cons_self)

theorem endsInSlash (h : IsName name) : Path.endsInSlash name = false := by
  rw [Path.endsInSlash, ← Bool.not_eq_true, List.isSuffixOf_iff_suffix]
  exact fun hslash => h.not_mem_slash (hslash.subset List.mem_cons_self)

theorem not_mem_slash_text (h : IsName name) : '/' ∉ (decodeLenient name).toList := fun hmem =>
  h.not_mem_slash (byte_mem_of_mem_decodeLenient (c := '/') (by decide) hmem)

theorem text_ne_empty (h : IsName name) : decodeLenient name ≠ "" := fun hempty =>
  h.1 (decodeLenient_eq_empty_iff.mp hempty)

end IsName

theorem not_mem_nul_of_names {names : List Bytes} (h : ∀ n ∈ names, IsName n) :
    0 ∉ between slash names := by
  intro hnul
  rcases mem_between hnul with hslash | ⟨n, hn, hname⟩
  · exact absurd hslash (by decide)
  · exact (h n hn).2.2.2.2.1 hname

namespace Path

theorem parts_append_slash (s t : Bytes) : parts (s ++ slash :: t) = parts s ++ parts t := by
  simp only [parts, fields_append_cons, List.filter_append]

theorem parts_of_isName {name : Bytes} (h : IsName name) : parts name = [name] := by
  simp [parts, fields_of_not_mem h.not_mem_slash, h.1]

theorem endsInSlash_iff {path : Bytes} : endsInSlash path = true ↔ ∃ s, path = s ++ [slash] := by
  rw [endsInSlash, List.isSuffixOf_iff_suffix]
  exact ⟨fun ⟨s, h⟩ => ⟨s, h.symm⟩, fun ⟨s, h⟩ => ⟨s, h.symm⟩⟩

theorem endsInSlash_append (s : Bytes) {t : Bytes} (ht : t ≠ []) :
    endsInSlash (s ++ t) = endsInSlash t := by
  have hlast (path : Bytes) : endsInSlash path = true ↔ path.getLast? = some slash := by
    rw [endsInSlash_iff, List.getLast?_eq_some_iff]
  rw [Bool.eq_iff_iff, hlast, hlast, List.getLast?_append, List.getLast?_eq_some_getLast ht,
    Option.some_or]

theorem parts_join (path : Bytes) {next : Bytes} (h : isAbsolute next = false) :
    parts (join path next) = parts path ++ parts next := by
  unfold join
  rw [h, if_neg (by decide)]
  split
  · next hp =>
    simp only [Bool.or_eq_true, decide_eq_true_eq] at hp
    rcases hp with rfl | hp
    · simp [parts, fields]
    · obtain ⟨t, rfl⟩ := endsInSlash_iff.mp hp
      have ht : parts (t ++ [slash]) = parts t := by
        have hempty := parts_append_slash t []
        simpa [parts, fields] using hempty
      rw [List.append_assoc, List.singleton_append, parts_append_slash, ht]
  · exact parts_append_slash path next

theorem isAbsolute_append {path : Bytes} (h : path ≠ []) (t : Bytes) :
    isAbsolute (path ++ t) = isAbsolute path := by
  obtain ⟨b, bs, rfl⟩ := List.exists_cons_of_ne_nil h
  simp [isAbsolute, List.isPrefixOf]

theorem isAbsolute_join (path : Bytes) {next : Bytes} (h : isAbsolute next = false) :
    isAbsolute (join path next) = isAbsolute path := by
  unfold join
  rw [h, if_neg (by decide)]
  by_cases hp : path = []
  · subst hp
    simp only [decide_true, Bool.true_or, ↓reduceIte, List.nil_append]
    exact h
  · split
    · exact isAbsolute_append hp next
    · exact isAbsolute_append hp _

theorem components_join (path : Bytes) {name : Bytes} (h : IsName name) :
    components (join path name) = components path ++ [name] := by
  unfold components
  rw [isAbsolute_join path h.isAbsolute, parts_join path h.isAbsolute, parts_of_isName h]
  split
  · simp [h.2.1]
  · cases parts path with
    | nil => rfl
    | cons first rest => simp [h.2.1]

theorem endsInSlash_join (path : Bytes) {name : Bytes} (h : IsName name) :
    endsInSlash (join path name) = false := by
  unfold join
  rw [h.isAbsolute, if_neg (by decide)]
  split
  · exact (endsInSlash_append _ h.1).trans h.endsInSlash
  · rw [← List.singleton_append, ← List.append_assoc]
    exact (endsInSlash_append _ h.1).trans h.endsInSlash

theorem join_of_plain {path next : Bytes} (hnext : isAbsolute next = false) (hne : path ≠ [])
    (hslash : endsInSlash path = false) : join path next = path ++ slash :: next := by
  simp [join, hnext, hne, hslash]

theorem join_append_slash (dir : Bytes) {name : Bytes} (h : IsName name) {rest : Bytes}
    (hr : isAbsolute rest = false) :
    join dir (name ++ slash :: rest) = join (join dir name) rest := by
  have habs : isAbsolute (name ++ slash :: rest) = false := by
    rw [isAbsolute_append h.1, h.isAbsolute]
  have hne : join dir name ≠ [] := by
    intro he
    have hparts := parts_join dir h.isAbsolute
    rw [he, parts_of_isName h] at hparts
    exact absurd hparts (by simp [parts, fields])
  rw [join_of_plain hr hne (endsInSlash_join dir h)]
  unfold join
  simp only [habs, h.isAbsolute, Bool.false_eq_true, ↓reduceIte]
  split <;> simp only [List.append_assoc, List.cons_append]

theorem isAbsolute_between {names : List Bytes} (hne : names ≠ []) (h : ∀ n ∈ names, IsName n) :
    isAbsolute (between slash names) = false := by
  cases names with
  | nil => exact absurd rfl hne
  | cons name names =>
    have hname := h name (by simp)
    cases names with
    | nil => exact hname.isAbsolute
    | cons next names =>
      rw [between_cons slash name (by simp), isAbsolute_append hname.1, hname.isAbsolute]

theorem isAbsolute_encode (s : String) : isAbsolute (encode s) = startsWith s "/" := by
  rw [Bool.eq_iff_iff, isAbsolute, List.isPrefixOf_iff_prefix, startsWith_iff_append]
  constructor
  · intro h
    cases hs : s.toList with
    | nil =>
      rw [encode_eq_flatMap, hs] at h
      exact absurd (List.prefix_nil.mp h) (by decide)
    | cons c cs =>
      rw [encode_eq_flatMap, hs, List.flatMap_cons] at h
      obtain ⟨b, bs, hc⟩ := List.exists_cons_of_ne_nil (String.utf8EncodeChar_ne_nil (c := c))
      rw [hc, List.cons_append, List.cons_prefix_cons] at h
      have hcode : c.val.toNat = slash.toNat :=
        code_of_mem_utf8EncodeChar (by decide) (hc ▸ h.1 ▸ List.mem_cons_self)
      have hchar : c = '/' := by rw [← Char.ofNat_toNat c]; exact congrArg Char.ofNat hcode
      exact ⟨String.ofList cs, by rw [← String.toList_inj, hs, hchar]; simp⟩
  · intro h
    obtain ⟨rest, rfl⟩ := h
    rw [encode_append]
    exact List.prefix_append _ _

theorem parts_encode (s : String) :
    parts (encode s) = ((split s '/').filter (· ≠ "")).map encode := by
  rw [parts, fields_encode, List.filter_map]
  congr 2
  funext part
  simp [encode_eq_nil_iff]

theorem not_mem_slash_of_parts {path part : Bytes} (h : part ∈ parts path) : slash ∉ part :=
  not_mem_of_mem_fields (List.mem_filter.mp h).1

theorem not_mem_slash_of_fileName? {path name : Bytes} (h : fileName? path = some name) :
    slash ∉ name := by
  unfold fileName? at h
  split at h
  · exact absurd h (by simp)
  · next last hlast =>
    split at h
    · exact absurd h (by simp)
    · next hplain =>
      obtain rfl : last = name := Option.some.inj h
      have hmem := List.mem_of_getLast? hlast
      have hpart : last ∈ parts path := by
        unfold components at hmem
        split at hmem
        · rcases List.mem_cons.mp hmem with hslash | hmem
          · simp [hslash] at hplain
          · exact (List.mem_filter.mp hmem).1
        · split at hmem
          · exact absurd hmem List.not_mem_nil
          · next first rest hparts =>
            rw [hparts]
            rcases List.mem_cons.mp hmem with rfl | hmem
            · exact List.mem_cons_self
            · exact List.mem_cons_of_mem _ (List.mem_filter.mp hmem).1
      exact not_mem_slash_of_parts hpart

/-- What is before the last dot of a name begins the name. -/
theorem prefix_cutAtLastDot (name : Bytes) : (cutAtLastDot name).1 <+: name := by
  unfold cutAtLastDot
  split
  · exact List.prefix_rfl
  · next last before hfields =>
    dsimp only
    split
    · exact List.prefix_rfl
    · next hcut =>
      have hbefore : before.reverse ≠ [] := by
        intro hnil
        simp [List.reverse_eq_nil_iff.mp hnil] at hcut
      have hall : fields dot name = before.reverse ++ [last] := by
        rw [← List.reverse_reverse (fields dot name), hfields, List.reverse_cons]
      refine ⟨dot :: last, ?_⟩
      rw [← between_fields dot name, hall, between_append dot hbefore (by simp), between]

theorem not_mem_slash_stem (path : Bytes) : '/' ∉ (stem path).toList := by
  unfold stem
  split
  · simp
  · next name hname =>
    intro hmem
    have hslash := byte_mem_of_mem_decodeLenient (c := '/') (by decide) hmem
    exact not_mem_slash_of_fileName? hname ((prefix_cutAtLastDot name).subset hslash)

section Texts

variable {names more : List Bytes}

theorem split_textOf (hne : names ≠ []) (h : ∀ n ∈ names, IsName n) :
    split (textOf names) '/' = names.map decodeLenient := by
  refine split_joinWith (by simpa) fun s hs => ?_
  obtain ⟨name, hname, rfl⟩ := List.mem_map.mp hs
  exact (h name hname).not_mem_slash_text

theorem textOf_map_encode (ss : List String) : textOf (ss.map encode) = joinWith "/" ss := by
  simp [textOf, Function.comp_def, decodeLenient_encode]

theorem not_mem_nul_textOf (h : ∀ n ∈ names, IsName n) : '\x00' ∉ (textOf names).toList := by
  intro hnul
  rw [textOf, toList_joinWith] at hnul
  rcases mem_between hnul with hslash | ⟨cs, hcs, hmem⟩
  · exact absurd hslash (by decide)
  · obtain ⟨text, htext, rfl⟩ := List.mem_map.mp hcs
    obtain ⟨n, hn, rfl⟩ := List.mem_map.mp htext
    exact (h n hn).2.2.2.2.1 (byte_mem_of_mem_decodeLenient (c := '\x00') (by decide) hmem)

/-- A text in which nothing was replaced tells the names from which it was read. -/
theorem encode_textOf (h : replacement ∉ (textOf names).toList) :
    encode (textOf names) = between slash names := by
  have hnames : ∀ name ∈ names, encode (decodeLenient name) = name := by
    intro name hname
    refine encode_decodeLenient fun hmem => h ?_
    rw [textOf, toList_joinWith]
    exact mem_between_of_mem (List.mem_map.mpr ⟨_, List.mem_map_of_mem hname, rfl⟩) hmem
  rw [textOf, encode_joinWith, List.map_map]
  exact congrArg _ ((List.map_congr_left hnames).trans (List.map_id names))

theorem textOf_inj (hne : names ≠ []) (h : ∀ n ∈ names, IsName n) (hne' : more ≠ [])
    (h' : ∀ n ∈ more, IsName n) (hread : replacement ∉ (textOf names).toList)
    (htext : textOf names = textOf more) : names = more := by
  have hbytes : between slash names = between slash more := by
    rw [← encode_textOf hread, ← encode_textOf (htext ▸ hread), htext]
  exact between_inj hne hne' (fun n hn => (h n hn).not_mem_slash)
    (fun n hn => (h' n hn).not_mem_slash) hbytes

end Texts

end Path

namespace FileTree

theorem pathBelow_cons (dir name : Bytes) (names : List Bytes) :
    pathBelow dir (name :: names) = pathBelow (Path.join dir name) names := rfl

theorem pathBelow_append (dir : Bytes) (names more : List Bytes) :
    pathBelow dir (names ++ more) = pathBelow (pathBelow dir names) more :=
  List.foldl_append

theorem components_pathBelow (dir : Bytes) {names : List Bytes} (h : ∀ n ∈ names, IsName n) :
    Path.components (pathBelow dir names) = Path.components dir ++ names := by
  induction names generalizing dir with
  | nil => simp [pathBelow]
  | cons name names ih =>
    rw [pathBelow_cons, ih _ (fun n hn => h n (List.mem_cons_of_mem _ hn)),
      Path.components_join dir (h name (by simp)), List.append_assoc, List.singleton_append]

theorem parts_pathBelow (dir : Bytes) {names : List Bytes} (h : ∀ n ∈ names, IsName n) :
    Path.parts (pathBelow dir names) = Path.parts dir ++ names := by
  induction names generalizing dir with
  | nil => simp [pathBelow]
  | cons name names ih =>
    have hn := h name (by simp)
    rw [pathBelow_cons, ih _ (fun n hn => h n (List.mem_cons_of_mem _ hn)),
      Path.parts_join dir hn.isAbsolute, Path.parts_of_isName hn, List.append_assoc,
      List.singleton_append]

theorem isAbsolute_pathBelow (dir : Bytes) {names : List Bytes} (h : ∀ n ∈ names, IsName n) :
    Path.isAbsolute (pathBelow dir names) = Path.isAbsolute dir := by
  induction names generalizing dir with
  | nil => rfl
  | cons name names ih =>
    rw [pathBelow_cons, ih _ (fun n hn => h n (List.mem_cons_of_mem _ hn)),
      Path.isAbsolute_join dir (h name (by simp)).isAbsolute]

/-- Below a folder's path a file is called by the names that lead to it, read as texts. -/
theorem relativeTo?_pathBelow (dir : Bytes) {names : List Bytes} (hne : names ≠ [])
    (h : ∀ n ∈ names, IsName n) :
    Path.relativeTo? dir (pathBelow dir names) = some (Path.textOf names) := by
  rw [Path.relativeTo?, components_pathBelow dir h, after?_append]
  cases names with
  | nil => exact absurd rfl hne
  | cons name names => rfl

/-- Names may be put behind a path one by one or all at once. -/
theorem join_between (dir : Bytes) {names : List Bytes} (hne : names ≠ [])
    (h : ∀ n ∈ names, IsName n) :
    Path.join dir (between slash names) = pathBelow dir names := by
  induction names generalizing dir with
  | nil => exact absurd rfl hne
  | cons name names ih =>
    have hname := h name (by simp)
    have hrest : ∀ n ∈ names, IsName n := fun n hn => h n (List.mem_cons_of_mem _ hn)
    by_cases hn : names = []
    · subst hn
      rfl
    · rw [between_cons slash name hn, Path.join_append_slash dir hname
        (Path.isAbsolute_between hn hrest),
        ih _ hn hrest, pathBelow_cons]

end FileTree

end UnusedAssets
