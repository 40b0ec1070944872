import UnusedAssets.Proofs.Rule.Occurrences

/-!
# The shape of what is found

Whatever a file holds, a reference found in it has the shape that the rules of its kind allow
(`Reference.HasShape`), and its texts stand in the file (`standsIn_of_mem_extract`). The groups of a
match carry this: each is a text that its pieces take, and stands in the match.
-/

namespace UnusedAssets

open Text CharClass

namespace Reference

def texts : Reference → List String
  | .controller route className => [route, className]
  | ref => [ref.literal]

def HasShape (kind : SourceKind) : Reference → Prop
  | .classImport name => kind ≠ .template ∧ ∀ c ∈ name.toList, c.isAlphanum ∨ c = '\\'
  | .view name => (∀ c ∈ name.toList, ¬ (c = '\'' ∨ c = '"' ∨ c = ')')) ∧
      (kind = .template → '.' ∈ name.toList)
  | .controller route className => kind ≠ .template ∧
      (∀ c ∈ route.toList, ¬ (c = '\'' ∨ c = '"')) ∧
      (∀ c ∈ className.toList, c.isAlphanum ∨ c = '\\') ∧
      ∃ stem, stem ≠ "" ∧ className = stem ++ "Controller"
  | .inclusion path => kind ≠ .template ∧ ∀ c ∈ path.toList, ¬ (c = '\'' ∨ c = '"')
  | .component name => kind = .template ∧
      ∀ c ∈ name.toList, c.isLower ∨ c.isDigit ∨ c = '.' ∨ c = '-'
  | .asset value => kind = .template ∧ Rule.IsAssetName value ∧
      ¬ (startsWith value "http" ∨ startsWith value "//")
  | .bundle path => kind = .template ∧ ∀ c ∈ path.toList, ¬ (c = '\'' ∨ c = '"')
  | .routePath path => kind = .template ∧ (∀ c ∈ path.toList, ¬ (c = '\'' ∨ c = '"')) ∧
      ¬ (startsWith path "http" ∨ startsWith path "#")

/-- A reference has the shape that files of this kind allow, and its texts stand in the content. -/
structure StandsIn (ref : Reference) (kind : SourceKind) (content : String) : Prop where
  shape : ref.HasShape kind
  ne_empty : ∀ s ∈ ref.texts, s ≠ ""
  mentioned : ∀ s ∈ ref.texts, mentions content s = true

variable {ref : Reference} {kind : SourceKind} {content s : String}

theorem StandsIn.of_part (h : ref.StandsIn kind s) (hs : mentions content s = true) :
    ref.StandsIn kind content where
  shape := h.shape
  ne_empty := h.ne_empty
  mentioned t ht :=
    mentions_iff_isInfix.mpr ((mentions_iff_isInfix.mp (h.mentioned t ht)).trans
      (mentions_iff_isInfix.mp hs))

theorem standsIn_self (htexts : ref.texts = [s]) (hne : s ≠ "") (hshape : ref.HasShape kind) :
    ref.StandsIn kind s where
  shape := hshape
  ne_empty := by simpa [htexts] using hne
  mentioned := by simpa [htexts] using mentions_iff_isInfix.mpr List.infix_rfl

end Reference

open Reference

namespace Pattern

variable {p : Pattern} {ps : List Piece} {groups : List String} {content : String}

theorem forall₂_of_mem_findAll (h : groups ∈ p.findAll content.toList) : List.Forall₂
    (fun ps s => Piece.TakeAll ps s.toList ∧ mentions content s = true) p.groupPieces groups := by
  obtain ⟨w, hw, htakes⟩ := exists_takes_of_mem_findAll h
  exact htakes.forall₂_groupPieces.imp fun ps s hs =>
    ⟨hs.1, mentions_iff_isInfix.mpr (hs.2.trans hw)⟩

theorem exists_group_of_mem_findAll (hpieces : p.groupPieces = [ps])
    (h : groups ∈ p.findAll content.toList) :
    ∃ s, groups = [s] ∧ Piece.TakeAll ps s.toList ∧ mentions content s = true := by
  have hgroups := forall₂_of_mem_findAll h
  rw [hpieces] at hgroups
  obtain ⟨s, _, ⟨hs, hin⟩, hnil, rfl⟩ := List.forall₂_cons_left_iff.mp hgroups
  obtain rfl := List.forall₂_nil_left_iff.mp hnil
  exact ⟨s, rfl, hs, hin⟩

end Pattern

namespace Rule

variable {r : Rule} {ref : Reference} {kind : SourceKind} {content : String} {ps : List Piece}
  {k : CharClass}

theorem standsIn_of_group (hpieces : r.pattern.groupPieces = [ps])
    (hrefs : ∀ s, Piece.TakeAll ps s.toList → ∀ ref ∈ r.references [s], ref.StandsIn kind s)
    (h : ref ∈ r.find content) : ref.StandsIn kind content := by
  obtain ⟨groups, hgroups, href⟩ := List.mem_flatMap.mp h
  obtain ⟨s, rfl, hs, hin⟩ := Pattern.exists_group_of_mem_findAll hpieces hgroups
  exact (hrefs s hs ref href).of_part hin

theorem standsIn_of_run (hpieces : r.pattern.groupPieces = [[.some k]])
    (hrefs : ∀ s, s ≠ "" → (∀ c ∈ s.toList, k.holds c = true) →
      ∀ ref ∈ r.references [s], ref.StandsIn kind s)
    (h : ref ∈ r.find content) : ref.StandsIn kind content := by
  refine standsIn_of_group hpieces (fun s hs => ?_) h
  obtain ⟨hne, hrun⟩ := Piece.takeAll_some_iff.mp hs
  exact hrefs s (by simpa using hne) hrun

theorem standsIn_ofGroup (make : String → Reference) (hrefs : r.references = ofGroup make)
    (hpieces : r.pattern.groupPieces = [[.some k]]) (htexts : ∀ s, (make s).texts = [s])
    (hshape : ∀ s, (∀ c ∈ s.toList, k.holds c = true) → (make s).HasShape kind)
    (h : ref ∈ r.find content) : ref.StandsIn kind content := by
  refine standsIn_of_run hpieces (fun s hne hrun ref href => ?_) h
  rw [hrefs] at href
  obtain rfl := List.mem_singleton.mp href
  exact standsIn_self (htexts s) hne (hshape s hrun)

/-! ### Route files and controllers -/

section Handlers

variable (hkind : kind ≠ .template)

include hkind

theorem standsIn_useStatement (h : ref ∈ useStatement.find content) :
    ref.StandsIn kind content :=
  standsIn_ofGroup .classImport rfl rfl (fun _ => rfl)
    (fun _ hrun => ⟨hkind, fun c hc => holds_classNames_iff.mp (hrun c hc)⟩) h

theorem standsIn_viewCall (h : ref ∈ viewCall.find content) : ref.StandsIn kind content :=
  standsIn_ofGroup .view rfl rfl (fun _ => rfl)
    (fun _ hrun => ⟨fun c hc => holds_arguments_iff.mp (hrun c hc), fun h => absurd h hkind⟩) h

theorem standsIn_inclusions (h : ref ∈ inclusions.find content) : ref.StandsIn kind content :=
  standsIn_ofGroup .inclusion rfl rfl (fun _ => rfl)
    (fun _ hrun => ⟨hkind, fun c hc => holds_unquoted_iff.mp (hrun c hc)⟩) h

theorem standsIn_routeController (h : ref ∈ routeController.find content) :
    ref.StandsIn kind content := by
  obtain ⟨groups, hfound, href⟩ := List.mem_flatMap.mp h
  have hgroups := Pattern.forall₂_of_mem_findAll hfound
  have hpieces : routeController.pattern.groupPieces =
      [[.some unquoted], [.some classNames, .literal "Controller"]] := rfl
  rw [hpieces] at hgroups
  obtain ⟨route, _, ⟨hroute, hroutes⟩, hclasses, rfl⟩ := List.forall₂_cons_left_iff.mp hgroups
  obtain ⟨className, _, ⟨hclass, hclassIn⟩, hnil, rfl⟩ := List.forall₂_cons_left_iff.mp hclasses
  obtain rfl := List.forall₂_nil_left_iff.mp hnil
  obtain rfl := List.mem_singleton.mp href
  obtain ⟨hrouteNe, hrouteRun⟩ := Piece.takeAll_some_iff.mp hroute
  obtain ⟨stem, _, hsplit, ⟨hstemNe, hstem⟩, _, _, rfl, rfl, rfl⟩ := hclass
  have hname : className = String.ofList stem ++ "Controller" := by
    rw [← String.toList_inj, hsplit]
    simp
  have hchars : ∀ c ∈ className.toList, classNames.holds c = true := by
    rw [hname, String.toList_append, String.toList_ofList, List.forall_mem_append]
    exact ⟨hstem, List.all_eq_true.mp (by decide)⟩
  refine ⟨⟨hkind, fun c hc => holds_unquoted_iff.mp (hrouteRun c hc),
    fun c hc => holds_classNames_iff.mp (hchars c hc), _, by simpa using hstemNe, hname⟩, ?_, ?_⟩
  · simpa [texts, hname] using hrouteNe
  · simpa [texts] using ⟨hroutes, hclassIn⟩

end Handlers

/-! ### Views -/

theorem standsIn_structuralDirective (h : ref ∈ structuralDirective.find content) :
    ref.StandsIn .template content := by
  refine standsIn_of_run rfl (fun s hne hrun ref href => ?_) h
  simp only [structuralDirective] at href
  split at href
  · next hdot =>
    obtain rfl := List.mem_singleton.mp href
    exact standsIn_self rfl hne ⟨fun c hc => holds_arguments_iff.mp (hrun c hc), fun _ => hdot⟩
  · exact absurd href List.not_mem_nil

theorem standsIn_componentTag (h : ref ∈ componentTag.find content) :
    ref.StandsIn .template content :=
  standsIn_ofGroup .component rfl rfl (fun _ => rfl)
    (fun _ hrun => ⟨rfl, fun c hc => holds_tagNames_iff.mp (hrun c hc)⟩) h

theorem standsIn_assetAttribute (h : ref ∈ assetAttribute.find content) :
    ref.StandsIn .template content := by
  refine standsIn_of_group rfl (fun s hs ref href => ?_) h
  have hname := takeAll_assetValue_iff.mp hs
  have hne : s ≠ "" := by
    obtain ⟨-, base, ext, -, -, rfl⟩ := hname
    simp
  simp only [assetAttribute] at href
  split at href
  · exact absurd href List.not_mem_nil
  · next hlocal =>
    obtain rfl := List.mem_singleton.mp href
    exact standsIn_self rfl hne ⟨rfl, hname, by simpa using hlocal⟩

theorem standsIn_entry {entries : String} {groups : List String}
    (h : groups ∈ bundlerEntry.findAll entries.toList) (href : ref ∈ ofGroup .bundle groups) :
    ref.StandsIn .template entries := by
  have hpieces : bundlerEntry.groupPieces = [[.some unquoted]] := rfl
  obtain ⟨value, rfl, hvalue, hin⟩ := Pattern.exists_group_of_mem_findAll hpieces h
  obtain ⟨hne, hrun⟩ := Piece.takeAll_some_iff.mp hvalue
  obtain rfl := List.mem_singleton.mp href
  have hself : (Reference.bundle value).StandsIn .template value :=
    standsIn_self rfl (by simpa using hne) ⟨rfl, fun c hc => holds_unquoted_iff.mp (hrun c hc)⟩
  exact hself.of_part hin

theorem standsIn_bundlerList (h : ref ∈ bundlerList.find content) :
    ref.StandsIn .template content := by
  refine standsIn_of_group rfl (fun entries _ ref href => ?_) h
  obtain ⟨groups, hgroups, href⟩ := List.mem_flatMap.mp href
  exact standsIn_entry hgroups href

theorem standsIn_bundlerSingle (h : ref ∈ bundlerSingle.find content) :
    ref.StandsIn .template content :=
  standsIn_ofGroup .bundle rfl rfl (fun _ => rfl)
    (fun _ hrun => ⟨rfl, fun c hc => holds_unquoted_iff.mp (hrun c hc)⟩) h

theorem standsIn_routeLink (h : ref ∈ routeLink.find content) : ref.StandsIn .template content := by
  refine standsIn_of_run rfl (fun s hne hrun ref href => ?_) h
  simp only [routeLink] at href
  split at href
  · exact absurd href List.not_mem_nil
  · next hlocal =>
    obtain rfl := List.mem_singleton.mp href
    exact standsIn_self rfl hne
      ⟨rfl, fun c hc => holds_unquoted_iff.mp (hrun c hc), by simpa using hlocal⟩

theorem standsIn_of_handlerRules (hkind : kind ≠ .template) (hr : r ∈ handlerRules)
    (h : ref ∈ r.find content) : ref.StandsIn kind content := by
  simp only [handlerRules, List.mem_cons, List.not_mem_nil, or_false] at hr
  rcases hr with rfl | rfl | rfl | rfl
  · exact standsIn_useStatement hkind h
  · exact standsIn_viewCall hkind h
  · exact standsIn_routeController hkind h
  · exact standsIn_inclusions hkind h

theorem standsIn_of_templateRules (hr : r ∈ templateRules) (h : ref ∈ r.find content) :
    ref.StandsIn .template content := by
  simp only [templateRules, List.mem_cons, List.not_mem_nil, or_false] at hr
  rcases hr with rfl | rfl | rfl | rfl | rfl | rfl
  · exact standsIn_structuralDirective h
  · exact standsIn_componentTag h
  · exact standsIn_assetAttribute h
  · exact standsIn_bundlerList h
  · exact standsIn_bundlerSingle h
  · exact standsIn_routeLink h

end Rule

theorem standsIn_of_mem_extract {ref : Reference} {kind : SourceKind} {content : String}
    (h : ref ∈ extract kind content) : ref.StandsIn kind content := by
  obtain ⟨r, hr, href⟩ := List.mem_flatMap.mp h
  cases kind with
  | route => exact Rule.standsIn_of_handlerRules (by decide) hr href
  | handler => exact Rule.standsIn_of_handlerRules (by decide) hr href
  | template => exact Rule.standsIn_of_templateRules hr href

theorem standsIn_of_mem_extract_users :
    .controller "/users" "UserController" ∈
        extract .route "Route::get('/users', [UserController::class, 'index']);" ∧
      (Reference.controller "/users" "UserController").StandsIn .route
        "Route::get('/users', [UserController::class, 'index']);" := by
  have hmem : .controller "/users" "UserController" ∈
      extract .route "Route::get('/users', [UserController::class, 'index']);" := by
    decide +kernel
  exact ⟨hmem, standsIn_of_mem_extract hmem⟩

end UnusedAssets
