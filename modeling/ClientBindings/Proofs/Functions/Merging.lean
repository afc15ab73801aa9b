import ClientBindings.Functions.Merge
import ClientBindings.Proofs.Entries

/-!
# The functions of a module by name

Standard and configured functions are merged into one list that is kept in the order of the names.

* `ByName`: functions under their own names, in ascending order of the names.
  `ByName.putSorted`, `ByName.addConfigured`: additions keep it, whatever is configured.
* `Module.customFunctions_ascending`, `Module.customFunctions_exported`: so the custom functions of
  a module have ascending names, all of which the module exports.
-/

namespace ClientBindings

/-! ## Functions by name -/

/-- Functions under their own names, in ascending order of the names. -/
structure ByName (found : Entries CustomFunction) : Prop where
  ascending : found.names.Pairwise (· < ·)
  named : ∀ entry ∈ found, entry.2.name = entry.1

theorem CustomFunction.withArguments_name (arguments : List Argument)
    (function : CustomFunction) :
    (arguments.foldl CustomFunction.withArgument function).name = function.name := by
  induction arguments generalizing function with
  | nil => rfl
  | cons argument rest ih =>
    rw [List.foldl_cons, ih, withArgument]
    split <;> rfl

namespace ByName

variable {found : Entries CustomFunction}

theorem nil : ByName [] := ⟨.nil, by simp⟩

theorem putSorted (h : ByName found) {name : String} {function : CustomFunction}
    (hname : function.name = name) : ByName (found.putSorted name function) where
  ascending := by
    rw [Entries.names_putSorted]
    exact insertSorted_pairwise h.ascending
  named entry hentry := by
    rcases Entries.mem_of_mem_putSorted hentry with rfl | hentry
    · exact hname
    · exact h.named entry hentry

/-- A configured function is added under its name, or its arguments to the function found there. -/
theorem addConfigured (h : ByName found) (extra : CustomFunction) :
    ByName (addConfigured found extra) := by
  rw [ClientBindings.addConfigured]
  split
  · exact h.putSorted rfl
  · next known hknown =>
    split
    · refine h.putSorted ?_
      rw [CustomFunction.withArguments_name]
      exact h.named _ (Entries.mem_of_find? hknown)
    · exact h

theorem foldl_addConfigured (h : ByName found) (extras : List CustomFunction) :
    ByName (extras.foldl ClientBindings.addConfigured found) := by
  induction extras generalizing found with
  | nil => exact h
  | cons extra rest ih => exact ih (h.addConfigured extra)

theorem sortedOfPairs (functions : List CustomFunction) :
    ByName (Entries.sortedOfPairs (functions.map fun function => (function.name, function))) := by
  suffices hfold : ∀ found, ByName found → ByName ((functions.map fun function =>
      (function.name, function)).foldl (fun found pair => found.putSorted pair.1 pair.2) found) from
    hfold [] nil
  induction functions with
  | nil => exact fun found hfound => hfound
  | cons function rest ih => exact fun found hfound => ih _ (hfound.putSorted rfl)

/-- The names of the functions are those that they stand under. -/
theorem map_name (h : ByName found) : (found.map (·.2)).map (·.name) = found.names := by
  rw [List.map_map]
  exact List.map_congr_left h.named

end ByName

/-! ## The custom functions of a module -/

namespace Module

variable (module : Module) (model : Model) (config : Config)

/-- The names of the custom functions ascend. -/
theorem customFunctions_ascending :
    ((module.customFunctions model config).map (·.name)).Pairwise (· < ·) := by
  have hfound := (ByName.sortedOfPairs (module.standardFunctions model)).foldl_addConfigured
    (config.functionsFor module.name)
  have hascending := hfound.ascending
  rw [← hfound.map_name] at hascending
  exact hascending.sublist (List.filter_sublist.map _)

/-- The module exports its custom functions. -/
theorem customFunctions_exported :
    ∀ function ∈ module.customFunctions model config, function.name ∈ module.exports := by
  intro function hfunction
  simpa [exportsName] using (List.mem_filter.mp hfunction).2

end Module

end ClientBindings
