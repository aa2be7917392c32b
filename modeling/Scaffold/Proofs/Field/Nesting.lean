import Mathlib.Data.List.Basic
import Mathlib.Tactic.Common
import Scaffold.Table
import Scaffold.Types.Naming

/-!
# Lists of objects below fields

`Field.nested` lists the lists of objects among fields and below them.  It misses nothing: what is
nested in the items of a list is found from where the list stands (`mem_nested_trans`).

Outputs that are tables show a field for each name, so they show all fields only if the names of
siblings differ (`AreDistinct`).
-/

namespace Scaffold.Field

/-- Siblings have distinct names, at every depth. -/
inductive AreDistinct : List Field → Prop where
  | intro {fields : List Field} : (fields.map name).Nodup → (∀ f ∈ fields, AreDistinct f.children) →
    AreDistinct fields

namespace AreDistinct

variable {f : Field} {fields : List Field}

lemma names (h : AreDistinct fields) : (fields.map name).Nodup := by
  cases h with
  | intro names _ => exact names

lemma children (h : AreDistinct fields) : ∀ f ∈ fields, AreDistinct f.children := by
  cases h with
  | intro _ children => exact children

lemma tail (h : AreDistinct (f :: fields)) : AreDistinct fields :=
  .intro (List.nodup_cons.1 h.names).2 fun g hg => h.children g (List.mem_cons_of_mem _ hg)

lemma nil : AreDistinct [] := .intro List.nodup_nil nofun

/-- A table of the visible fields has no name twice. -/
lemma nodup_keys_visible {α : Type} (g : Field → α) (h : AreDistinct fields) :
    (Table.keys ((visible fields).map fun f => (f.name, g f))).Nodup := by
  rw [Table.keys, List.map_map]
  exact h.names.sublist (List.filter_sublist.map name)

end AreDistinct

/-- Going through the visible fields is going through all fields and leaving out the others. -/
lemma map_visible_cons {α : Type} (g : Field → α) (f : Field) (fs : List Field) :
    (visible (f :: fs)).map g = (if isIdentity f.name then [] else [g f]) ++ (visible fs).map g := by
  cases h : isIdentity f.name <;> simp [visible, h]

lemma nested_eq_flatMap (fs : List Field) : nested fs = fs.flatMap nestedIn := by
  induction fs with
  | nil => rfl
  | cons f fs ih => rw [nested, ih, List.flatMap_cons]

mutual

/-- Lists of objects below the items of a list are found from where the list stands. -/
lemma mem_nestedIn_trans {f g : Field} (hg : g ∈ nested f.children) :
    ∀ h, f ∈ nestedIn h → g ∈ nestedIn h
  | ⟨name, isRequired, isOptional, kind, children⟩, hf => by
    have hchildren := mem_nested_trans hg children
    rw [nestedIn, List.mem_append] at hf ⊢
    rcases hf with hf | hf
    · exact .inl (hchildren hf)
    · split at hf
      · obtain rfl := List.mem_singleton.1 hf
        exact .inl hg
      · cases hf
termination_by structural h => h

lemma mem_nested_trans {f g : Field} (hg : g ∈ nested f.children) :
    ∀ hs, f ∈ nested hs → g ∈ nested hs
  | [], hf => absurd hf List.not_mem_nil
  | h :: hs, hf => by
    have hhead := mem_nestedIn_trans hg h
    have htail := mem_nested_trans hg hs
    rw [nested, List.mem_append] at hf ⊢
    exact hf.imp hhead htail
termination_by structural hs => hs

end

end Scaffold.Field
