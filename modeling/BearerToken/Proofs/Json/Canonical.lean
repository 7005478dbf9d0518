import Mathlib
import BearerToken.Proofs.Json.RoundTrip

/-!
# Texts of values that mean the same

The text of a value is that of its normal form, as leaves that JSON has no form for are written as
their texts and members are written in order. So a tidy value that was read from its text is written
as that text again.
-/

namespace BearerToken.Json

open Value

theorem writeChars_normal (v : Value) : writeChars v.normal = writeChars v := by
  induction v using induct with
  | null => rfl
  | bool b => rfl
  | int n => rfl
  | number x => rfl
  | text t => rfl
  | uuid u => rfl
  | moment m => rfl
  | list items ih =>
      have texts : (items.map normal).map writeChars = items.map writeChars := by
        rw [List.map_map]
        exact List.map_congr_left ih
      rw [normal_list, writeChars_list, writeChars_list, texts]
  | object members ih =>
      have texts : ((ordered members).map fun m => (m.1, m.2.normal)).map memberText =
          (ordered members).map memberText := by
        rw [List.map_map]
        apply List.map_congr_left
        intro m inside
        rw [Function.comp_apply, memberText, memberText, ih m (mem_of_mem_ordered inside)]
      rw [normal_object, writeChars_object, writeChars_object, ordered_map, ordered_ordered, texts]

/-- The text of a tidy value is the text of what is read from it. -/
theorem write_reread {v : Value} (tidy : v.Tidy) : write v.reread = write v := by
  rw [tidy.reread_eq, write, write, writeChars_normal]

end BearerToken.Json
