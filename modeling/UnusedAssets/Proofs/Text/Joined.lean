import UnusedAssets.Text.Fields

/-!
# Joined texts

A list cut at a separator is put together again from the parts, and parts without the separator that
are put together come apart again (`fields_between`), so that they are told by what they make together
(`between_inj`). For texts cut at their slashes these are `joinWith_split` and `split_joinWith`.
-/

namespace UnusedAssets.Text

section Lists

variable {α : Type} [DecidableEq α]

theorem fields_of_not_mem {sep : α} {xs : List α} (h : sep ∉ xs) : fields sep xs = [xs] := by
  induction xs with
  | nil => rfl
  | cons x xs ih =>
    have hx : x ≠ sep := fun e => h (by simp [e])
    have hxs : sep ∉ xs := fun hm => h (List.mem_cons_of_mem _ hm)
    simp [fields, hx, ih hxs]

theorem fields_append_cons (sep : α) (xs ys : List α) :
    fields sep (xs ++ sep :: ys) = fields sep xs ++ fields sep ys := by
  induction xs with
  | nil => simp [fields]
  | cons x xs ih =>
    by_cases hx : x = sep
    · simp [fields, hx, ih]
    · cases hf : fields sep xs with
      | nil => exact absurd hf (fields_ne_nil sep xs)
      | cons f fs => simp [fields, hx, ih, hf]

theorem mem_of_mem_fields {sep x : α} {xs f : List α} (h : f ∈ fields sep xs) (hx : x ∈ f) :
    x ∈ xs := by
  induction xs generalizing f with
  | nil =>
    rw [fields, List.mem_singleton] at h
    exact h ▸ hx
  | cons y ys ih =>
    unfold fields at h
    split at h
    · rcases List.mem_cons.mp h with rfl | h
      · exact absurd hx List.not_mem_nil
      · exact List.mem_cons_of_mem y (ih h hx)
    · cases hfields : fields sep ys with
      | nil => exact absurd hfields (fields_ne_nil sep ys)
      | cons g gs =>
        simp only [hfields, List.mem_cons] at h ih
        rcases h with rfl | h
        · rcases List.mem_cons.mp hx with rfl | hx
          · exact List.mem_cons_self
          · exact List.mem_cons_of_mem y (ih (.inl rfl) hx)
        · exact List.mem_cons_of_mem y (ih (.inr h) hx)

/-- What holds no separator goes to the last field. -/
theorem exists_fields_append {sep : α} {tail : List α} (h : sep ∉ tail) (xs : List α) :
    ∃ init last, fields sep xs = init ++ [last] ∧
      fields sep (xs ++ tail) = init ++ [last ++ tail] := by
  induction xs with
  | nil => exact ⟨[], [], rfl, fields_of_not_mem h⟩
  | cons x xs ih =>
    obtain ⟨init, last, hxs, happend⟩ := ih
    by_cases hx : x = sep
    · exact ⟨[] :: init, last, by simp [fields, hx, hxs], by simp [fields, hx, happend]⟩
    · cases init with
      | nil => exact ⟨[], x :: last, by simp [fields, hx, hxs], by simp [fields, hx, happend]⟩
      | cons f init =>
        exact ⟨(x :: f) :: init, last, by simp [fields, hx, hxs], by simp [fields, hx, happend]⟩

omit [DecidableEq α] in
theorem between_cons (sep : α) (f : List α) {fs : List (List α)} (h : fs ≠ []) :
    between sep (f :: fs) = f ++ sep :: between sep fs := by
  cases fs with
  | nil => exact absurd rfl h
  | cons g fs => rfl

omit [DecidableEq α] in
theorem between_append (sep : α) {fs gs : List (List α)} (hf : fs ≠ []) (hg : gs ≠ []) :
    between sep (fs ++ gs) = between sep fs ++ sep :: between sep gs := by
  induction fs with
  | nil => exact absurd rfl hf
  | cons f fs ih =>
    by_cases hfs : fs = []
    · subst hfs
      exact between_cons sep f hg
    · rw [List.cons_append, between_cons sep f (by simp [hfs]), ih hfs, between_cons sep f hfs,
        List.append_assoc, List.cons_append]

omit [DecidableEq α] in
theorem mem_between {sep x : α} {fs : List (List α)} (h : x ∈ between sep fs) :
    x = sep ∨ ∃ f ∈ fs, x ∈ f := by
  induction fs with
  | nil => exact absurd h List.not_mem_nil
  | cons f fs ih =>
    cases fs with
    | nil => exact .inr ⟨f, List.mem_cons_self, h⟩
    | cons g fs =>
      rw [between_cons sep f (by simp), List.mem_append, List.mem_cons] at h
      rcases h with hf | rfl | hrest
      · exact .inr ⟨f, List.mem_cons_self, hf⟩
      · exact .inl rfl
      · rcases ih hrest with hsep | ⟨k, hk, hx⟩
        · exact .inl hsep
        · exact .inr ⟨k, List.mem_cons_of_mem f hk, hx⟩

omit [DecidableEq α] in
theorem mem_between_of_mem {sep x : α} {f : List α} {fs : List (List α)} (hf : f ∈ fs)
    (hx : x ∈ f) : x ∈ between sep fs := by
  induction fs with
  | nil => exact absurd hf List.not_mem_nil
  | cons g fs ih =>
    cases fs with
    | nil => exact List.mem_singleton.mp hf ▸ hx
    | cons k fs =>
      rw [between_cons sep g (by simp)]
      rcases List.mem_cons.mp hf with rfl | hf
      · exact List.mem_append_left _ hx
      · exact List.mem_append_right _ (List.mem_cons_of_mem _ (ih hf))

theorem fields_between {sep : α} {fs : List (List α)} (hne : fs ≠ []) (h : ∀ f ∈ fs, sep ∉ f) :
    fields sep (between sep fs) = fs := by
  induction fs with
  | nil => exact absurd rfl hne
  | cons f fs ih =>
    have hf : fields sep f = [f] := fields_of_not_mem (h f (by simp))
    cases fs with
    | nil => exact hf
    | cons g fs =>
      rw [between_cons sep f (by simp), fields_append_cons, hf,
        ih (by simp) (fun k hk => h k (List.mem_cons_of_mem _ hk))]
      rfl

theorem between_inj {sep : α} {fs gs : List (List α)} (hf : fs ≠ []) (hg : gs ≠ [])
    (hfs : ∀ f ∈ fs, sep ∉ f) (hgs : ∀ g ∈ gs, sep ∉ g) (h : between sep fs = between sep gs) :
    fs = gs := by
  rw [← fields_between hf hfs, h, fields_between hg hgs]

end Lists

theorem split_of_not_mem {s : String} {sep : Char} (h : sep ∉ s.toList) : split s sep = [s] := by
  simp [split, fields_of_not_mem h]

theorem split_of_toList {s t text : String} {sep : Char}
    (h : text.toList = s.toList ++ sep :: t.toList) :
    split text sep = split s sep ++ split t sep := by
  simp only [split, h, fields_append_cons, List.map_append]

theorem split_ne_nil (s : String) (sep : Char) : split s sep ≠ [] := by
  intro h
  exact fields_ne_nil sep s.toList (List.map_eq_nil_iff.mp h)

theorem ofList_between (fs : List (List Char)) :
    String.ofList (between '/' fs) = joinWith "/" (fs.map String.ofList) := by
  induction fs with
  | nil => rfl
  | cons f fs ih =>
    cases fs with
    | nil => rfl
    | cons g fs =>
      rw [between, String.ofList_append, String.ofList_cons, ih, ← String.append_assoc]
      rfl

theorem joinWith_split (s : String) : joinWith "/" (split s '/') = s := by
  rw [split, ← ofList_between, between_fields, String.ofList_toList]

theorem split_append_slash (s t : String) :
    split (s ++ "/" ++ t) '/' = split s '/' ++ split t '/' :=
  split_of_toList (by simp)

theorem mem_of_mem_split {s part : String} {sep c : Char} (h : part ∈ split s sep)
    (hc : c ∈ part.toList) : c ∈ s.toList := by
  obtain ⟨f, hf, rfl⟩ := List.mem_map.mp h
  exact mem_of_mem_fields hf (by simpa using hc)

theorem exists_split_append {tail : String} {sep : Char} (h : sep ∉ tail.toList) (s : String) :
    ∃ init last, split s sep = init ++ [last] ∧ split (s ++ tail) sep = init ++ [last ++ tail] := by
  obtain ⟨init, last, hs, happend⟩ := exists_fields_append h s.toList
  refine ⟨init.map String.ofList, String.ofList last, by simp [split, hs], ?_⟩
  rw [split, String.toList_append, happend, List.map_append, List.map_singleton,
    String.ofList_append, String.ofList_toList]

theorem joinWith_cons (sep s : String) {ss : List String} (h : ss ≠ []) :
    joinWith sep (s :: ss) = s ++ sep ++ joinWith sep ss := by
  cases ss with
  | nil => exact absurd rfl h
  | cons t ss => rfl

theorem joinWith_append (sep : String) {ss ts : List String} (hs : ss ≠ []) (ht : ts ≠ []) :
    joinWith sep (ss ++ ts) = joinWith sep ss ++ sep ++ joinWith sep ts := by
  induction ss with
  | nil => exact absurd rfl hs
  | cons s ss ih =>
    cases ss with
    | nil => exact joinWith_cons sep s ht
    | cons r ss =>
      rw [List.cons_append, joinWith_cons sep s (by simp), ih (by simp),
        joinWith_cons sep s (by simp)]
      simp only [String.append_assoc]

theorem mem_joinWith {sep : String} {ss : List String} {c : Char}
    (h : c ∈ (joinWith sep ss).toList) : c ∈ sep.toList ∨ ∃ s ∈ ss, c ∈ s.toList := by
  induction ss with
  | nil => simp [joinWith] at h
  | cons s ss ih =>
    cases ss with
    | nil => exact .inr ⟨s, List.mem_cons_self, h⟩
    | cons t ss =>
      rw [joinWith_cons sep s (by simp), String.toList_append, String.toList_append,
        List.mem_append, List.mem_append] at h
      rcases h with (hs | hsep) | hrest
      · exact .inr ⟨s, List.mem_cons_self, hs⟩
      · exact .inl hsep
      · rcases ih hrest with hsep | ⟨r, hr, hc⟩
        · exact .inl hsep
        · exact .inr ⟨r, List.mem_cons_of_mem s hr, hc⟩

theorem toList_joinWith (ss : List String) :
    (joinWith "/" ss).toList = between '/' (ss.map String.toList) := by
  rw [← String.toList_ofList (l := between _ _), ofList_between, List.map_map]
  simp [Function.comp_def]

theorem split_joinWith {ss : List String} (hne : ss ≠ []) (h : ∀ s ∈ ss, '/' ∉ s.toList) :
    split (joinWith "/" ss) '/' = ss := by
  rw [split, toList_joinWith, fields_between (by simpa) (by simpa), List.map_map]
  simp [Function.comp_def]

end UnusedAssets.Text
