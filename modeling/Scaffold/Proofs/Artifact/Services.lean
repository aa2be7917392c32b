import Scaffold.Artifact.Handlers
import Scaffold.Proofs.Text.Lines

/-!
# What the service of a module imports

The service file imports the removal of uploaded files exactly if the module handles uploads, which a
field can ask for as well as the command line.
-/

namespace Scaffold.Service

open Code

variable {b : Blueprint} {raw : Text}

/-- The lines after the imports. -/
def bodyLines (b : Blueprint) : List Text :=
  createLines b ++ updateLines b ++ deleteLines b ++ getLines b ++ getAllLines b.names.className ++
    exportedOperations b.names.className (b.names.className ++ "Services")

/-- The imports of every service. -/
def imports (n : Names) : List Text :=
  [importNames ["StatusCodes"] "http-status-codes", importDefault "ApiError" "../../../errors/ApiError",
    importNames ["I" ++ n.className] ("./" ++ n.folder ++ ".interface"),
    importNames [n.className] ("./" ++ n.folder ++ ".model"), importNames ["Types"] "mongoose"]

lemma fileLines_eq (b : Blueprint) :
    fileLines b = imports b.names ++ onUpload b [helperImport] ++ [[]] ++ bodyLines b := by
  simp only [fileLines, imports, bodyLines, List.append_assoc]

lemma mem_onUpload_iff {l : Text} {ls : List Text} : l ∈ onUpload b ls ↔ b.usesUpload = true ∧ l ∈ ls := by
  unfold onUpload
  split
  · rename_i h
    simp [h]
  · rename_i h
    simp [h]

/-! ## No other line is the import -/

/-- No line after the imports starts like one. -/
lemma head_ne_of_mem_bodyLines (b : Blueprint) : ∀ l ∈ bodyLines b, l.head? ≠ some 'i' := by
  have hall : (bodyLines b).all (fun l => l.head? != some 'i') = true := by
    unfold bodyLines createLines updateLines deleteLines getLines getAllLines onUpload
    cases b.usesUpload with
    | true => rfl
    | false => rfl
  simpa using hall

/-- The other imports differ from the one of the helper, whatever the names are. -/
lemma helperImport_not_mem_imports (n : Names) : helperImport ∉ imports n := by
  have hmodel : helperImport ≠ importNames [n.className] ("./" ++ n.folder ++ ".model") := fun h => by
    have hsuffix : (".model';" : Text) <:+ importNames [n.className] ("./" ++ n.folder ++ ".model") :=
      ⟨"import " ++ Text.braced n.className ++ " from '" ++ ("./" ++ n.folder), by
        unfold importNames
        simp only [Text.join_singleton, List.append_assoc]
        rfl⟩
    rw [← h] at hsuffix
    exact absurd hsuffix (by decide)
  have hinterface : helperImport ≠ importNames ["I" ++ n.className] ("./" ++ n.folder ++ ".interface") :=
    fun h => by
    have hleft : (helperImport.drop 9).head? = some 'r' := by decide
    rw [h] at hleft
    exact absurd (Option.some.inj hleft) (by decide)
  simp only [imports, List.mem_cons, List.not_mem_nil, or_false, not_or]
  exact ⟨by decide, by decide, hinterface, hmodel, by decide⟩

/-! ## All lines are lines -/

lemma isLine_uploadField (b : Blueprint) : Text.isLine b.uploadField = true := by
  unfold Blueprint.uploadField
  split
  · rename_i f hf
    have hname := List.find?_some hf
    simp only [Blueprint.uploadNames, List.mem_cons, List.not_mem_nil, or_false, decide_eq_true_eq] at hname
    rcases hname with h | h | h
    · rw [h]
      decide
    · rw [h]
      decide
    · rw [h]
      decide
  · decide

lemma isLine_indent (width : Nat) (l : Text) : Text.isLine (indent width l) = Text.isLine l := by
  have hblanks : Text.isLine (List.replicate width ' ') = true :=
    Text.isLine_iff.2 fun h => absurd (List.eq_of_mem_replicate h) (by decide)
  rw [indent, Text.isLine_append, hblanks, Bool.true_and]

lemma isLine_braced (l : Text) : Text.isLine (Text.braced l) = Text.isLine l := by
  have hparts : Text.braced l = [ '{', ' '] ++ l ++ [' ', '}'] := rfl
  rw [hparts, Text.isLine_append, Text.isLine_append]
  exact Bool.and_true _

lemma isLine_imports (n : Names) (hcls : Text.isLine n.className = true)
    (hfolder : Text.isLine n.folder = true) : (imports n).all Text.isLine = true := by
  unfold imports importNames importDefault
  simp only [Text.join_singleton, List.all_cons, Text.isLine_append,
    isLine_braced, hcls, hfolder, Bool.and_true]
  decide

/-- Every part of a line is a fixed text or one of the names. -/
lemma isLine_bodyLines (hcls : Text.isLine b.names.className = true)
    (hfolder : Text.isLine b.names.folder = true) : (bodyLines b).all Text.isLine = true := by
  have hkey := isLine_uploadField b
  unfold bodyLines createLines updateLines deleteLines getLines getAllLines exportedOperations operationEnd
    refusal removal promise onUpload opening
  cases b.usesUpload with
  | true =>
    simp only [if_true, List.all_append, List.all_cons, Text.isLine_append, isLine_indent, isLine_braced, hcls,
      hfolder, hkey, Bool.and_true]
    decide
  | false =>
    simp only [Bool.false_eq_true, if_false, List.all_append, List.all_cons, Text.isLine_append, isLine_indent,
      isLine_braced, hcls, hfolder, Bool.and_true]
    decide

/-- **A service imports the helper** exactly if its module handles uploads. -/
theorem helperImport_mem_iff (h : Names.ofRaw? raw = some b.names) :
    helperImport ∈ Text.splitOn '\n' (file b) ↔ b.usesUpload = true := by
  have hcls := Text.isLine_iff.2 (Names.newline_not_mem_className h)
  have hfolder := Text.isLine_iff.2 (Names.newline_not_mem_folder h)
  have hlines : ∀ l ∈ fileLines b, '\n' ∉ l := fun l hl => by
    rw [fileLines_eq, List.mem_append, List.mem_append, List.mem_append, mem_onUpload_iff,
      List.mem_singleton, List.mem_singleton] at hl
    rw [← Text.isLine_iff]
    rcases hl with ((hl | ⟨-, rfl⟩) | rfl) | hl
    · exact List.all_eq_true.1 (isLine_imports _ hcls hfolder) l hl
    · decide
    · rfl
    · exact List.all_eq_true.1 (isLine_bodyLines hcls hfolder) l hl
  have hne : fileLines b ≠ [] := by simp [fileLines_eq, imports]
  rw [file, Text.splitOn_lines hne hlines, fileLines_eq, List.mem_append, List.mem_append, List.mem_append,
    mem_onUpload_iff, List.mem_singleton, List.mem_singleton]
  refine ⟨?_, fun hupload => .inl (.inl (.inr ⟨hupload, rfl⟩))⟩
  rintro (((himport | ⟨hupload, -⟩) | hempty) | hbody)
  · exact absurd himport (helperImport_not_mem_imports _)
  · exact hupload
  · exact absurd hempty (by decide)
  · exact absurd rfl (head_ne_of_mem_bodyLines b _ hbody)

end Scaffold.Service
