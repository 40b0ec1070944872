import UnusedAssets.Proofs.Removal.Exactness
import UnusedAssets.Proofs.Text.Joined
import UnusedAssets.Proofs.Text.LenientDecoding

/-!
# Removal of tracked files

What the listing of tracked files has to do with the removal commands: it decides between the two
forms of each command and nothing else (`removalCommands_tracking`). A file is tracked only if the
listing was successful and tells it (`mem_tracked`), and every listing of paths without a zero
character is read as these paths (`paths_terminated`).
-/

namespace UnusedAssets

open Text

namespace ListingReply

variable {reply : ListingReply} {path : String} {listed : List String}

/-- The listing was successful and tells the path: it is one of the pieces between zero characters. -/
def Tells (reply : ListingReply) (path : String) : Prop :=
  ∃ output errors, reply = .finished 0 output errors ∧ path ≠ "" ∧
    path ∈ split (decodeLenient output) '\x00'

def Failed (reply : ListingReply) : Prop := ∀ output errors, reply ≠ .finished 0 output errors

theorem mem_paths {output : String} :
    path ∈ paths output ↔ path ≠ "" ∧ path ∈ split output '\x00' := by
  rw [paths, OrderedSet.mem_ofList, List.mem_filter, decide_eq_true_eq, and_comm]

theorem mem_tracked : path ∈ reply.tracked ↔ reply.Tells path := by
  cases reply with
  | missing => simp [tracked, tracked?, Tells]
  | finished status output errors =>
    by_cases hstatus : status = 0
    · subst hstatus
      simp [tracked, tracked?, Tells, mem_paths]
    · simp [tracked, tracked?, Tells, hstatus]

theorem not_tells_of_failed (h : reply.Failed) : ¬ reply.Tells path := by
  rintro ⟨output, errors, hreply, -⟩
  exact h output errors hreply

/-- A listing of some paths, with a zero character after each. -/
def terminated (listed : List String) : String := String.join (listed.map (· ++ "\x00"))

theorem split_terminated (h : ∀ path ∈ listed, '\x00' ∉ path.toList) :
    split (terminated listed) '\x00' = listed ++ [""] := by
  induction listed with
  | nil => rfl
  | cons path rest ih =>
    have hcut : (terminated (path :: rest)).toList =
        path.toList ++ '\x00' :: (terminated rest).toList := by
      rw [terminated, List.map_cons, String.join_cons, String.toList_append, String.toList_append,
        List.append_assoc]
      rfl
    rw [split_of_toList hcut, split_of_not_mem (h path List.mem_cons_self),
      ih fun p hp => h p (List.mem_cons_of_mem _ hp)]
    rfl

theorem paths_terminated (h : ∀ path ∈ listed, path ≠ "" ∧ '\x00' ∉ path.toList) :
    paths (terminated listed) = OrderedSet.ofList listed := by
  refine OrderedSet.ext_mem fun path => ?_
  rw [mem_paths, split_terminated fun p hp => (h p hp).2, OrderedSet.mem_ofList, List.mem_append,
    List.mem_singleton]
  constructor
  · rintro ⟨hne, hmem | hempty⟩
    · exact hmem
    · exact absurd hempty hne
  · exact fun hmem => ⟨(h path hmem).1, .inl hmem⟩

end ListingReply

namespace RemovalCommand

variable {c : RemovalCommand} {unused : List String} {tracked : OrderedSet String}

theorem tracked_of_mem_all (h : c ∈ all unused tracked) : c.tracked = true ↔ c.path ∈ tracked := by
  obtain ⟨path, -, rfl⟩ := List.mem_map.mp h
  exact OrderedSet.contains_iff

theorem text_of_tracked (h : c.tracked = true) : c.text = "git rm -f " ++ shellQuoted c.path := by
  rw [text, if_pos h]

theorem text_of_not_tracked (h : ¬ c.tracked = true) : c.text = "rm " ++ shellQuoted c.path := by
  rw [text, if_neg h]

end RemovalCommand

open ListingReply

/-- The commands are for the same paths whatever becomes of the listing. Those for the paths that a
successful listing tells have the one form, all others the other; after a failure no path counts as
told, whatever was written. What is told by a listing of paths without zero characters are these. -/
theorem Analysis.removalCommands_tracking (a : Analysis) :
    (∀ reply, (a.removalCommands reply).map (·.path) = (OrderedSet.ofList a.unused).toList) ∧
    (∀ reply, ∀ c ∈ a.removalCommands reply,
      (c.tracked = true ↔ reply.Tells c.path) ∧
      (reply.Tells c.path → c.text = "git rm -f " ++ shellQuoted c.path) ∧
      (¬ reply.Tells c.path → c.text = "rm " ++ shellQuoted c.path)) ∧
    (∀ reply : ListingReply, reply.Failed →
      ∀ c ∈ a.removalCommands reply, c.tracked = false ∧ c.text = "rm " ++ shellQuoted c.path) ∧
    ∀ listed : List String, (∀ path ∈ listed, path ≠ "" ∧ '\x00' ∉ path.toList) →
      paths (terminated listed) = OrderedSet.ofList listed ∧
      ∀ errors, (finished 0 (encode (terminated listed)) errors).tracked =
        OrderedSet.ofList listed := by
  have htracked : ∀ reply, ∀ c ∈ a.removalCommands reply,
      (c.tracked = true ↔ reply.Tells c.path) := fun reply c hc =>
    (RemovalCommand.tracked_of_mem_all hc).trans mem_tracked
  refine ⟨fun reply => RemovalCommand.paths_all _ _, fun reply c hc => ?_,
    fun reply hfailed c hc => ?_, fun listed hlisted => ⟨paths_terminated hlisted, fun errors => ?_⟩⟩
  · have hc := htracked reply c hc
    exact ⟨hc, fun htells => RemovalCommand.text_of_tracked (hc.mpr htells),
      fun htells => RemovalCommand.text_of_not_tracked (mt hc.mp htells)⟩
  · have hc := mt (htracked reply c hc).mp (not_tells_of_failed hfailed)
    exact ⟨eq_false_of_ne_true hc, RemovalCommand.text_of_not_tracked hc⟩
  · rw [tracked, tracked?, if_pos rfl, decodeLenient_encode]
    exact paths_terminated hlisted

/-- An unused file, listed by a program that is successful and by one that is not. -/
theorem Analysis.removalCommands_tracking_site : ∃ a events,
    Project.linkedSite.analyze Project.siteSettings = .ok (a, events) ∧
      (∃ c ∈ a.removalCommands (.finished 0 (encode "a.css\x00old.css\x00") []),
        c.path = "old.css" ∧ c.text = "git rm -f 'old.css'") ∧
      (∃ c ∈ a.removalCommands (.finished 128 (encode "a.css\x00old.css\x00") []),
        c.path = "old.css" ∧ c.text = "rm 'old.css'") ∧
      paths "a.css\x00old.css\x00" = OrderedSet.ofList ["a.css", "old.css"] := by
  obtain ⟨a, events, ha⟩ :=
    Project.exists_analyze (s := Project.siteSettings) Project.isFolder_linkedSite
  obtain ⟨hpaths, hforms, hfailed, hlisted⟩ := a.removalCommands_tracking
  have hmem : ∀ reply, ∃ c ∈ a.removalCommands reply, c.path = "old.css" := fun reply =>
    List.mem_map.mp (Analysis.mem_removalCommands.mpr (Project.dividesSite ha).old)
  obtain ⟨htold, hread⟩ := hlisted ["a.css", "old.css"] (by decide)
  refine ⟨a, events, ha, ?_, ?_, htold⟩
  · obtain ⟨c, hc, hpath⟩ := hmem (.finished 0 (encode "a.css\x00old.css\x00") [])
    have htells : (finished 0 (encode "a.css\x00old.css\x00") []).Tells c.path := by
      rw [← mem_tracked, hpath]
      exact (hread []).symm ▸ OrderedSet.mem_ofList.mpr (by simp)
    refine ⟨c, hc, hpath, ?_⟩
    rw [(hforms _ c hc).2.1 htells, hpath]
    decide
  · obtain ⟨c, hc, hpath⟩ := hmem (.finished 128 (encode "a.css\x00old.css\x00") [])
    refine ⟨c, hc, hpath, ?_⟩
    rw [(hfailed _ (by simp [Failed]) c hc).2, hpath]
    decide

end UnusedAssets
