import LayeredRights.Rights.Merge

/-!
# Combining layers does not look at origins

Which layer an entry of the configuration in force is from is decided by the layer it is found in.
The origins that the entries of the documents have make no difference.

This is what makes saving and loading again harmless: the text of a document does not say where its
entries are from, so what is read back agrees with what was saved up to origins, and that is enough
(`merge_eq_of_tagged_eq`).
-/

namespace LayeredRights

@[simp] theorem Profile.tagged_tagged (p : Profile) (o o' : Origin) :
    (p.tagged o).tagged o' = p.tagged o' := rfl

@[simp] theorem UserProfile.tagged_tagged (u : UserProfile) (o o' : Origin) :
    (u.tagged o).tagged o' = u.tagged o' := rfl

namespace Document

@[simp] theorem tagged_tagged (d : Document) (o o' : Origin) :
    (d.tagged o).tagged o' = d.tagged o' := by
  simp [tagged, Function.comp_def]

/-- Every entry is tagged anew when it is laid over another, so an earlier tag is lost. -/
theorem overlaid_tagged (base layer : Document) (o : Origin) :
    base.overlaid (layer.tagged o) = base.overlaid layer := by
  simp [overlaid, tagged, unshadowed, Function.comp_def, Profile.tagged, UserProfile.tagged]

end Document

/-- What two layers come to, and whether they conflict, does not depend on the origins in the upper
one. -/
theorem merge_tagged (base layer : Document) (o : Origin) :
    merge base (some (layer.tagged o)) = merge base (some layer) := by
  simp only [merge, Document.overlaid_tagged]
  rfl

/-- Layers that agree up to origins give the same configuration. -/
theorem merge_eq_of_tagged_eq {base layer layer' : Document}
    (h : layer.tagged .factory = layer'.tagged .factory) :
    merge base (some layer) = merge base (some layer') := by
  rw [← merge_tagged base layer .factory, h, merge_tagged]

/-- Layers of the base document's mode can be combined with it. -/
theorem merge_of_mode_eq {base layer : Document} (h : layer.mode = base.mode) :
    merge base (some layer) = .ok (base.overlaid layer) := by
  rw [merge, if_pos h]

end LayeredRights
