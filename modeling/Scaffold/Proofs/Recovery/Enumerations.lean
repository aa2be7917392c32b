import Mathlib.Data.List.TakeWhile
import Mathlib.Tactic.Common
import Scaffold.Artifact.Interface
import Scaffold.Proofs.Artifact.MemberKeys
import Scaffold.Proofs.Recovery.Blocks

/-!
# Reading enumerations that were printed

A member of an enumeration is a key and a literal.  The key is made from the value, by letters and
digits of ASCII and underscores, so it is a word whatever the value is, and what it is does not
matter for reading: a member is found at its key, and its literal is read back by undoing the
escapes (`memberValues_lines`).
-/

namespace Scaffold

/-! ## Keys -/

namespace Members

lemma isWord_of_isKeyChar {c : Char} (h : isKeyChar c = true) : Text.isWord c = true := by
  refine Text.isWord_of_isAsciiWord ?_
  simp only [isKeyChar, Bool.or_eq_true] at h
  simp only [Text.isAsciiWord, Text.isAsciiAlnum, Bool.or_eq_true]
  tauto

/-- Keys are words. -/
lemma isWord_assign (values : List Text) (used : List (Text × Nat)) :
    ∀ m ∈ assign used values, m.1 ≠ [] ∧ ∀ c ∈ m.1, Text.isWord c = true := by
  intro m hm
  have hkey : IsKey m.1 := isKey_of_mem_assign hm
  exact ⟨Text.ne_nil_of_isExactIdentifier hkey.identifier, fun c hc =>
    isWord_of_isKeyChar (hkey.chars c hc)⟩

end Members

/-! ## Members -/

namespace Recovery

variable {w rest : Text}

lemma enumMember?_append (hw : ∀ c ∈ w, Text.isWord c = true) (hne : w ≠ []) (v rest : Text) :
    enumMember? (w ++ ' ' :: '=' :: ' ' :: (Literal.quote v ++ rest)) = some (v, rest) := by
  have hequals : skipBlanks (' ' :: '=' :: ' ' :: (Literal.quote v ++ rest)) =
      '=' :: ' ' :: (Literal.quote v ++ rest) := by
    rw [skipBlanks_space, skipBlanks_cons_of_not_blank (by decide)]
  have hquote : skipBlanks (' ' :: (Literal.quote v ++ rest)) = Literal.quote v ++ rest := by
    rw [skipBlanks_space]
    exact skipBlanks_cons_of_not_blank (by decide) _
  simp only [enumMember?, word?_append hw hne (by decide : Text.isWord ' ' = false),
    Option.bind_eq_bind, Option.bind_some, hequals, after?_singleton, hquote, literal?_quote,
    unescape_escape]
  rfl

lemma inert_enumMember {t : Text} (h : ∀ c ∈ t, Text.isWord c = false) : Inert enumMember? t :=
  inert_of_heads fun c hc s => by
    rw [enumMember?, word?_cons_of_not_word (h c hc)]
    rfl

/-- **Values are read back** from the members of an enumeration, without empty ones. -/
theorem memberValues_lines {ms : List (Text × Text)}
    (h : ∀ m ∈ ms, m.1 ≠ [] ∧ ∀ c ∈ m.1, Text.isWord c = true) :
    memberValues ('\n' :: ms.flatMap fun m => Interface.memberLine m ++ ['\n']) =
      (ms.map Prod.snd).filter fun v => !v.isEmpty := by
  have hstart : ∀ c ∈ [' ', ' '], Text.isWord c = false := Text.forall_mem_of_all (by decide)
  have hend : ∀ c ∈ [',', '\n'], Text.isWord c = false := Text.forall_mem_of_all (by decide)
  have hopen : ∀ c ∈ ['\n'], Text.isWord c = false := Text.forall_mem_of_all (by decide)
  have hall : all enumMember? (ms.flatMap fun m => Interface.memberLine m ++ ['\n']) =
      ms.map Prod.snd := by
    induction ms with
    | nil => rfl
    | cons m ms ih =>
      obtain ⟨hne, hw⟩ := h m (by simp)
      set tail := ms.flatMap fun m => Interface.memberLine m ++ ['\n'] with htail
      have hline : Interface.memberLine m ++ ['\n'] ++ tail =
          [' ', ' '] ++ ((m.1 ++ ' ' :: '=' :: ' ' :: Literal.quote m.2) ++ ([',', '\n'] ++ tail)) := by
        simp only [Interface.memberLine, Code.indent, List.append_assoc]
        rfl
      -- what is between two literals begins no member
      have hread : enumMember? ((m.1 ++ ' ' :: '=' :: ' ' :: Literal.quote m.2) ++ ([',', '\n'] ++ tail)) =
          some (m.2, [',', '\n'] ++ tail) := by
        rw [List.append_assoc]
        exact enumMember?_append hw hne m.2 _
      rw [List.flatMap_cons, List.map_cons, hline, all_append_of_inert (inert_enumMember hstart),
        all_append_of_read hread (by simp), all_append_of_inert (inert_enumMember hend),
        ih fun m' hm' => h m' (by simp [hm'])]
  have hbody : all enumMember? ('\n' :: ms.flatMap fun m => Interface.memberLine m ++ ['\n']) =
      ms.map Prod.snd := by
    rw [← hall]
    exact all_append_of_inert (p := ['\n']) (inert_enumMember hopen) _
  rw [memberValues, hbody]

end Recovery

end Scaffold
