import Mathlib.Data.List.Basic
import Mathlib.Tactic.Common
import Scaffold.Proofs.Artifact.Declarations

/-!
# Pieces of generated code

A text alone does not tell the name of a declared schema or type from a literal that is spelled like
it.  So a generated file is taken apart into pieces: declarations, references, and everything else
(`Code.Piece`), which put together again are the file.  `Scoped` and `DeclaredFirst` say that
references come after the declarations they refer to.
-/

namespace Scaffold

namespace Code

/-- A piece of a generated file. -/
inductive Piece where
  /-- The declaration of a schema, up to its equals sign. -/
  | declared (schema : Text)
  /-- A reference to a schema. -/
  | used (schema : Text)
  /-- Anything else. -/
  | other (t : Text)

/-- A piece as it is written. -/
def Piece.text : Piece → Text
  | declared schema => "const " ++ schema ++ " ="
  | used schema => schema
  | other t => t

@[simp] lemma Piece.text_declared (schema : Text) :
    (declared schema).text = "const " ++ schema ++ " =" := rfl

@[simp] lemma Piece.text_used (schema : Text) : (used schema).text = schema := rfl

@[simp] lemma Piece.text_other (t : Text) : (other t).text = t := rfl

/-- Pieces as they are written. -/
def pieceText (ps : List Piece) : Text := ps.flatMap Piece.text

/-- The schema that a piece refers to. -/
def Piece.use? : Piece → Option Text
  | used schema => some schema
  | _ => none

/-- The schemas that pieces refer to, in order. -/
def uses (ps : List Piece) : List Text := ps.filterMap Piece.use?

/-- The schemas that pieces declare, in order. -/
def declarations : List Piece → List Text
  | [] => []
  | .declared schema :: ps => schema :: declarations ps
  | .used _ :: ps => declarations ps
  | .other _ :: ps => declarations ps

/-- Every reference is to a schema that is known beforehand or declared by an earlier piece. -/
def Scoped (known : List Text) : List Piece → Prop
  | [] => True
  | .declared schema :: ps => Scoped (schema :: known) ps
  | .used schema :: ps => schema ∈ known ∧ Scoped known ps
  | .other _ :: ps => Scoped known ps

/-- Every reference comes after the declaration of its schema. -/
def DeclaredFirst (ps : List Piece) : Prop :=
  ∀ before schema after, ps = before ++ .used schema :: after → .declared schema ∈ before

/-- Pieces with a separator between neighbours. -/
def joinPieces (separator : Text) : List (List Piece) → List Piece
  | [] => []
  | [ps] => ps
  | ps :: next :: rest => ps ++ .other separator :: joinPieces separator (next :: rest)

/-- Lines without references and declarations. -/
def plainLines (ls : List Text) : List (List Piece) := ls.map fun l => [.other l]

variable {ps qs : List Piece} {known known' : List Text}

lemma declarations_append (ps qs : List Piece) :
    declarations (ps ++ qs) = declarations ps ++ declarations qs := by
  induction ps with
  | nil => rfl
  | cons p ps ih => cases p <;> simp [declarations, ih]

@[simp] lemma pieceText_nil : pieceText [] = [] := rfl

@[simp] lemma pieceText_cons (p : Piece) (ps : List Piece) :
    pieceText (p :: ps) = p.text ++ pieceText ps := rfl

@[simp] lemma pieceText_append (ps qs : List Piece) :
    pieceText (ps ++ qs) = pieceText ps ++ pieceText qs := List.flatMap_append ..

@[simp] lemma uses_append (ps qs : List Piece) : uses (ps ++ qs) = uses ps ++ uses qs :=
  List.filterMap_append ..

@[simp] lemma uses_nil : uses [] = [] := rfl

@[simp] lemma uses_other (t : Text) (ps : List Piece) : uses (.other t :: ps) = uses ps := rfl

@[simp] lemma uses_used (s : Text) (ps : List Piece) : uses (.used s :: ps) = s :: uses ps := rfl

@[simp] lemma uses_declared (s : Text) (ps : List Piece) : uses (.declared s :: ps) = uses ps := rfl

lemma pieceText_joinPieces (separator : Text) (pss : List (List Piece)) :
    pieceText (joinPieces separator pss) = Text.join separator (pss.map pieceText) := by
  fun_induction joinPieces separator pss with
  | case1 => rfl
  | case2 ps => rfl
  | case3 ps next rest ih =>
    rw [pieceText_append, pieceText_cons, ih]
    simp only [List.map_cons, Text.join_cons_cons, List.append_assoc]
    rfl

lemma uses_joinPieces (separator : Text) (pss : List (List Piece)) :
    uses (joinPieces separator pss) = pss.flatMap uses := by
  fun_induction joinPieces separator pss with
  | case1 => rfl
  | case2 ps => simp
  | case3 ps next rest ih => simp only [uses_append, uses_other, ih, List.flatMap_cons]

@[simp] lemma map_pieceText_plainLines (ls : List Text) : (plainLines ls).map pieceText = ls := by
  induction ls with
  | nil => rfl
  | cons l ls ih =>
    rw [plainLines, List.map_cons, List.map_cons, ← plainLines, ih]
    simp

@[simp] lemma flatMap_uses_plainLines (ls : List Text) : (plainLines ls).flatMap uses = [] := by
  induction ls with
  | nil => rfl
  | cons l ls ih => rw [plainLines, List.map_cons, List.flatMap_cons, ← plainLines, ih]; rfl

/-- The pieces of a file, given those of its lines. -/
def filePieces (lines : List (List Piece)) : List Piece :=
  lines.flatMap fun ps => ps ++ [.other ['\n']]

lemma filePieces_append (ls ms : List (List Piece)) :
    filePieces (ls ++ ms) = filePieces ls ++ filePieces ms := List.flatMap_append ..

lemma filePieces_flatMap {α : Type} (line : α → List (List Piece)) (as : List α) :
    filePieces (as.flatMap line) = as.flatMap fun a => filePieces (line a) := List.flatMap_assoc ..

/-- A file ends with an empty line. -/
lemma pieceText_filePieces (ls : List (List Piece)) :
    pieceText (filePieces ls) = Text.lines (ls.map pieceText ++ [[]]) := by
  rw [Text.lines_append_nil]
  induction ls with
  | nil => rfl
  | cons l ls ih =>
    rw [List.map_cons, List.flatMap_cons, ← ih, filePieces, List.flatMap_cons, ← filePieces,
      pieceText_append, pieceText_append]
    rfl

lemma uses_filePieces (ls : List (List Piece)) : uses (filePieces ls) = ls.flatMap uses := by
  induction ls with
  | nil => rfl
  | cons l ls ih =>
    rw [filePieces, List.flatMap_cons, ← filePieces, uses_append, uses_append, ih,
      List.flatMap_cons, uses_other, uses_nil, List.append_nil]

/-! ### Scopes -/

lemma Scoped.mono (h : Scoped known ps) (hsub : ∀ s ∈ known, s ∈ known') : Scoped known' ps := by
  induction ps generalizing known known' with
  | nil => trivial
  | cons p ps ih =>
    cases p with
    | declared s =>
      have hrest : Scoped (s :: known) ps := h
      exact ih hrest (List.cons_subset_cons s hsub)
    | used s => exact ⟨hsub s h.1, ih h.2 hsub⟩
    | other t =>
      have hrest : Scoped known ps := h
      exact ih hrest hsub

/-- What the first pieces declare is known to the others. -/
lemma Scoped.append (hp : Scoped known ps) (hq : Scoped (known ++ declarations ps) qs) :
    Scoped known (ps ++ qs) := by
  induction ps generalizing known with
  | nil => exact hq.mono (by simp [declarations])
  | cons p ps ih =>
    cases p with
    | declared s =>
      have hrest : Scoped (s :: known) ps := hp
      refine ih hrest (hq.mono fun t ht => ?_)
      simp only [declarations, List.mem_append, List.mem_cons] at ht ⊢
      tauto
    | used s => exact ⟨hp.1, ih hp.2 hq⟩
    | other t =>
      have hrest : Scoped known ps := hp
      exact ih hrest hq

lemma scoped_of_uses (h : ∀ s ∈ uses ps, s ∈ known) : Scoped known ps := by
  induction ps generalizing known with
  | nil => trivial
  | cons p ps ih =>
    cases p with
    | declared s => exact ih fun t ht => List.mem_cons_of_mem s (h t ht)
    | used s => exact ⟨h s (by simp), ih fun t ht => h t (by simp [ht])⟩
    | other t => exact ih h

lemma Scoped.mem_or_declared {before after : List Piece} {schema : Text}
    (h : Scoped known (before ++ .used schema :: after)) :
    schema ∈ known ∨ .declared schema ∈ before := by
  induction before generalizing known with
  | nil => exact .inl h.1
  | cons p before ih =>
    cases p with
    | declared s =>
      have hrest : Scoped (s :: known) (before ++ .used schema :: after) := h
      rcases ih hrest with hs | hs
      · rcases List.mem_cons.1 hs with rfl | hs
        · exact .inr (List.mem_cons_self ..)
        · exact .inl hs
      · exact .inr (List.mem_cons_of_mem _ hs)
    | used s => exact (ih h.2).imp_right (List.mem_cons_of_mem _)
    | other t =>
      have hrest : Scoped known (before ++ .used schema :: after) := h
      exact (ih hrest).imp_right (List.mem_cons_of_mem _)

lemma declaredFirst_of_scoped (h : Scoped [] ps) : DeclaredFirst ps := by
  rintro before schema after rfl
  exact h.mem_or_declared.resolve_left List.not_mem_nil

end Code

end Scaffold
