import Scaffold.Proofs.Recovery.Members

/-!
# Brackets that match

The depth that a body is cut by counts brackets without telling one sort from another.  A text whose brackets close
each other (`Matched`) is passed over whatever stands in it: it leaves the depth as it was, and what is cut is cut
outside of its brackets.  So it matters only that semicolons stand inside of brackets, as those of inline objects do.
-/

namespace Scaffold.Recovery

variable {t u : Text} {c : Char} {within : Bool} {depth : Int}

/-- The brackets that the depth counts, with what closes them. -/
def brackets : List (Char × Char) := [('{', '}'), ('<', '>'), ('(', ')')]

/-- A text on one line whose brackets close each other.  A semicolon may stand inside of brackets, and outside of
them only if the text is to stand within others. -/
inductive Matched : Bool → Text → Prop
  | nil {within : Bool} : Matched within []
  | plain {within : Bool} {c : Char} {t : Text} : bracketStep c = 0 → c ≠ '\n' → (c = ';' → within = true) →
      Matched within t → Matched within (c :: t)
  | group {within : Bool} {o c : Char} {u t : Text} : (o, c) ∈ brackets → Matched true u → Matched within t →
      Matched within (o :: (u ++ c :: t))

lemma cases_of_mem_brackets {o c : Char} (h : (o, c) ∈ brackets) :
    bracketStep o = 1 ∧ bracketStep c = -1 ∧ o ≠ '\n' ∧ c ≠ '\n' ∧ o ≠ ';' ∧ c ≠ ';' ∧
      (o = '{' ∧ c = '}' ∨ o ≠ '{' ∧ o ≠ '}' ∧ c ≠ '{' ∧ c ≠ '}') := by
  simp only [brackets, List.mem_cons, List.not_mem_nil, or_false, Prod.mk.injEq] at h
  rcases h with ⟨rfl, rfl⟩ | ⟨rfl, rfl⟩ | ⟨rfl, rfl⟩ <;> decide

/-- A text without brackets, semicolons and line ends. -/
lemma matched_of_plain (h : ∀ c ∈ t, bracketStep c = 0 ∧ c ≠ '\n' ∧ c ≠ ';') : Matched within t := by
  induction t with
  | nil => exact .nil
  | cons c t ih =>
    obtain ⟨hstep, hline, hsemi⟩ := h c (by simp)
    exact .plain hstep hline (fun hc => absurd hc hsemi) (ih fun d hd => h d (by simp [hd]))

/-- A fixed text, looked at character by character. -/
lemma matched_of_all (h : (t.all fun c => decide (bracketStep c = 0 ∧ c ≠ '\n' ∧ c ≠ ';')) = true) :
    Matched within t :=
  matched_of_plain (Text.forall_mem_of_all h)

namespace Matched

lemma append (ht : Matched within t) (hu : Matched within u) : Matched within (t ++ u) := by
  induction ht with
  | nil => exact hu
  | plain hstep hline hsemi _ ih => exact .plain hstep hline hsemi (ih hu)
  | group hbrackets hin _ _ ih =>
    rw [List.cons_append, List.append_assoc, List.cons_append]
    exact .group hbrackets hin (ih hu)

/-- What stands anywhere may stand within brackets. -/
lemma inner (h : Matched within t) : Matched true t := by
  induction h with
  | nil => exact .nil
  | plain hstep hline _ _ ih => exact .plain hstep hline (fun _ => rfl) ih
  | group hbrackets hin _ _ ih => exact .group hbrackets hin ih

lemma net_eq (h : Matched within t) : net t = 0 := by
  induction h with
  | nil => rfl
  | plain hstep _ _ _ ih => rw [net_cons, hstep, ih, Int.add_zero]
  | group hbrackets _ _ ihin ih =>
    obtain ⟨ho, hc, -⟩ := cases_of_mem_brackets hbrackets
    rw [net_cons, net_append, net_cons, ho, hc, ihin, ih]
    rfl

lemma newline (h : Matched within t) : '\n' ∉ t := by
  induction h with
  | nil => exact List.not_mem_nil
  | plain _ hline _ _ ih => exact List.not_mem_cons_of_ne_of_not_mem (Ne.symm hline) ih
  | group hbrackets _ _ ihin ih =>
    obtain ⟨-, -, ho, hc, -⟩ := cases_of_mem_brackets hbrackets
    simp only [List.mem_cons, List.mem_append, not_or]
    exact ⟨Ne.symm ho, ihin, Ne.symm hc, ih⟩

/-- Nothing is cut in a text whose brackets match, if its outer semicolons are within brackets. -/
lemma uncut (h : Matched within t) (hdepth : 0 ≤ depth) (hwithin : within = true → 0 < depth) :
    Uncut depth t := by
  induction h generalizing depth with
  | nil => exact fun u c v heq => by simp at heq
  | plain hstep hline hsemi _ ih =>
    refine .cons (fun hc => ?_) (by rw [hstep, Int.add_zero]; exact ih hdepth hwithin)
    have := hwithin (hsemi (hc.resolve_right hline))
    omega
  | @group within o c u t hbrackets hin _ ihin ih =>
    obtain ⟨ho, hc, holine, hcline, hosemi, hcsemi, -⟩ := cases_of_mem_brackets hbrackets
    refine .cons (fun h => absurd h (by simp [hosemi, holine])) ?_
    refine .append (ihin (by omega) (by omega)) ?_
    refine .cons (fun h => absurd h (by simp [hcsemi, hcline])) ?_
    have hback : depth + bracketStep o + net u + bracketStep c = depth := by
      rw [hin.net_eq, ho, hc]
      omega
    rw [hback]
    exact ih hdepth hwithin

lemma isClosed (h : Matched false t) : IsClosed t := ⟨h.uncut le_rfl nofun, h.net_eq⟩

lemma isBraced (h : Matched within t) : IsBraced t := by
  induction h with
  | nil => exact .nil
  | plain hstep _ _ _ ih =>
    refine .plain ?_ ?_ ih
    · rintro rfl
      exact absurd hstep (by decide)
    · rintro rfl
      exact absurd hstep (by decide)
  | group hbrackets _ _ ihin ih =>
    obtain ⟨-, -, -, -, -, -, hcases⟩ := cases_of_mem_brackets hbrackets
    rcases hcases with ⟨rfl, rfl⟩ | ⟨ho, ho', hc, hc'⟩
    · exact .group ihin ih
    · exact .plain ho ho' (ihin.append (.plain hc hc' ih))

end Matched

/-- Texts with a separator between them. -/
lemma matched_join {separator : Text} (hseparator : Matched within separator) {ts : List Text}
    (h : ∀ t ∈ ts, Matched within t) : Matched within (Text.join separator ts) := by
  induction ts with
  | nil => exact .nil
  | cons t ts ih =>
    have ht := h t (by simp)
    cases ts with
    | nil => exact ht
    | cons u ts =>
      rw [Text.join_cons_cons]
      exact (ht.append hseparator).append (ih fun v hv => h v (by simp [hv]))

end Scaffold.Recovery
