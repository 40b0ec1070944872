/-!
# Sorted texts
-/

namespace UnusedAssets.Text

/-- Some texts in ascending order, each as often as before. -/
def sorted (texts : List String) : List String := texts.mergeSort fun s t => compare s t != .gt

theorem sorted_perm (texts : List String) : (sorted texts).Perm texts :=
  List.mergeSort_perm texts _

@[simp] theorem mem_sorted {texts : List String} {s : String} : s ∈ sorted texts ↔ s ∈ texts :=
  (sorted_perm texts).mem_iff

end UnusedAssets.Text
