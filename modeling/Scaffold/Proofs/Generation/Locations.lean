import Scaffold.Generation.Folder
import Scaffold.Proofs.Generation.Sources
import Scaffold.Proofs.Names

/-!
# Where the files of a module are

A module whose folder is an identifier has its files directly in that folder, and the folder is directly
in the folder of modules.  Other folders need not be: a slash in a name is a slash in a path.
-/

namespace Scaffold.ModuleFolder

variable {s : Settings} {n : Names} {d : Disk} {a b : Artifact}

/-- The path of a file of a module. -/
def artifactPath (s : Settings) (n : Names) (a : Artifact) : Path := (path s n).child (n.fileName a)

lemma fileName_eq (n : Names) (a : Artifact) : n.fileName a = Rebuild.sourceName n.folder a.name := by
  simp [Names.fileName, Names.fileNameOf, Rebuild.sourceName]

lemma fileName_injective (h : n.fileName a = n.fileName b) : a = b := by
  simp only [Names.fileName, Names.fileNameOf] at h
  exact Artifact.name_injective (List.append_cancel_left (List.append_cancel_right h))

lemma fileName_ne_dots (n : Names) (a : Artifact) : n.fileName a ≠ ['.', '.'] := fun h => by
  have hlength := Rebuild.length_sourceName n.folder a.name
  rw [← fileName_eq, h] at hlength
  exact absurd hlength (Nat.lt_irrefl 2)

section Identifier

variable (hfolder : Text.isExactIdentifier n.folder = true)

include hfolder

lemma slash_not_mem_folder : '/' ∉ n.folder :=
  fun h => absurd (Text.isIdentifierRest_of_mem hfolder h) (by decide)

lemma dot_not_mem_folder : '.' ∉ n.folder :=
  fun h => absurd (Text.isIdentifierRest_of_mem hfolder h) (by decide)

lemma folder_ne_dots : n.folder ≠ ['.', '.'] :=
  fun h => dot_not_mem_folder hfolder (h ▸ List.mem_cons_self ..)

/-- The folder of a module is in the folder of modules. -/
lemma path_eq (s : Settings) : path s n = ⟨s.modulesPath.anchor, s.modulesPath.parts ++ [n.folder]⟩ := by
  have hpart : Path.isPart n.folder = true := by
    have hne : n.folder ≠ ['.'] := fun h => dot_not_mem_folder hfolder (h ▸ List.mem_singleton_self _)
    simpa [Path.isPart, hne] using Text.ne_nil_of_isExactIdentifier hfolder
  rw [path, Path.child, Rebuild.ofText_of_not_mem (slash_not_mem_folder hfolder) hpart]
  rfl

/-- The files of a module are in its folder. -/
lemma artifactPath_eq (s : Settings) (a : Artifact) :
    artifactPath s n a = ⟨s.modulesPath.anchor, s.modulesPath.parts ++ [n.folder, n.fileName a]⟩ := by
  have hkind : '/' ∉ a.name := by cases a <;> decide
  have hslash : '/' ∉ n.fileName a := by
    simp [fileName_eq, Rebuild.sourceName, hkind, slash_not_mem_folder hfolder]
  have hpart : Path.isPart (n.fileName a) = true := by
    rw [fileName_eq]
    exact Rebuild.isPart_of_length (Nat.lt_of_succ_lt (Rebuild.length_sourceName _ _))
  rw [artifactPath, path_eq hfolder, Path.child, Rebuild.ofText_of_not_mem hslash hpart]
  simp [Path.join]

lemma parent_artifactPath (s : Settings) (a : Artifact) : (artifactPath s n a).parent = path s n := by
  rw [artifactPath_eq hfolder, path_eq hfolder]
  simp [Path.parent, List.dropLast_append_of_ne_nil]

lemma destination_path (s : Settings) (d : Disk) :
    d.destination (path s n) = d.destination s.modulesPath ++ [n.folder] := by
  have hstart : d.start ⟨s.modulesPath.anchor, s.modulesPath.parts ++ [n.folder]⟩ = d.start s.modulesPath :=
    rfl
  rw [path_eq hfolder, Disk.destination, hstart, List.foldl_append, ← Disk.destination]
  simp [Path.followLexically, folder_ne_dots hfolder]

lemma destination_artifactPath (s : Settings) (a : Artifact) (d : Disk) :
    d.destination (artifactPath s n a) = d.destination s.modulesPath ++ [n.folder, n.fileName a] := by
  have hstart : d.start ⟨s.modulesPath.anchor, s.modulesPath.parts ++ [n.folder, n.fileName a]⟩ =
      d.start s.modulesPath := rfl
  rw [artifactPath_eq hfolder, Disk.destination, hstart, List.foldl_append, ← Disk.destination]
  simp [Path.followLexically, folder_ne_dots hfolder, fileName_ne_dots]

/-- Different files of a module are in different places. -/
lemma destination_artifactPath_injective
    (h : d.destination (artifactPath s n a) = d.destination (artifactPath s n b)) : a = b := by
  rw [destination_artifactPath hfolder, destination_artifactPath hfolder] at h
  exact fileName_injective (by simpa using h)

end Identifier

end Scaffold.ModuleFolder
