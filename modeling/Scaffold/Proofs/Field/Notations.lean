import Scaffold.Proofs.Field.Accounting
import Scaffold.Proofs.Text.Lines
import Scaffold.Proofs.Text.Occurrences

/-!
# The two notations of an enumeration

An enumeration is written `name[a,b]` or `name:enum[a,b]`.  The first notation is taken from the token
as a whole, the second only after the token is cut at every colon, so the two agree on values without a
colon.  A colon cuts the second notation in the middle of its values: what is left of it is a tag that
is no enumeration, with attributes behind it (`kind_readParts`).  Nothing hides the difference but the
name of the identity, which stands for no field in either notation (`notations_agree_iff`).
-/

namespace Scaffold.Token

variable {depth : Int} {token name marks raw tag : Text} {more : List Text} {d : Decorated}

/-- An enumeration as a name in front of its values. -/
def shorthand (name marks raw : Text) : Text := name ++ marks ++ '[' :: (raw ++ [']'])

/-- An enumeration as a name with a type. -/
def typed (name marks raw : Text) : Text := name ++ marks ++ ':' :: ("enum[".toList ++ (raw ++ [']']))

/-- Two readings with the same result, and findings of the same levels and codes. -/
structure Reading.Agrees (r s : Reading) : Prop where
  field : r.field? = s.field?
  findings : r.findings.map (fun f => (f.severity, f.code)) = s.findings.map fun f => (f.severity, f.code)

/-- A name with markers behind it. -/
structure IsMarked (name marks : Text) : Prop where
  name : ∀ c ∈ name, Text.isAsciiWord c = true
  marks : ∀ c ∈ marks, isMarker c = true

/-! ## Names with markers -/

lemma isMarker_eq_false_of_isAsciiWord {c : Char} (h : Text.isAsciiWord c = true) : isMarker c = false := by
  unfold isMarker
  rw [Bool.or_eq_false_iff, beq_eq_false_iff_ne, beq_eq_false_iff_ne]
  constructor
  · rintro rfl
    exact absurd h (by decide)
  · rintro rfl
    exact absurd h (by decide)

lemma isAsciiWord_eq_false_of_isMarker {c : Char} (h : isMarker c = true) : Text.isAsciiWord c = false := by
  by_contra hc
  rw [isMarker_eq_false_of_isAsciiWord (by simpa using hc)] at h
  cases h

lemma isBlank_eq_false_of_isMarker {c : Char} (h : isMarker c = true) : Text.isBlank c = false := by
  unfold isMarker at h
  rw [Bool.or_eq_true, beq_iff_eq, beq_iff_eq] at h
  rcases h with rfl | rfl <;> decide

namespace IsMarked

variable (h : IsMarked name marks)

include h

lemma isBlank_eq_false {c : Char} (hc : c ∈ name ++ marks) : Text.isBlank c = false := by
  rcases List.mem_append.1 hc with hc | hc
  · exact Text.isBlank_eq_false_of_isWord (Text.isWord_of_isAsciiWord (h.name c hc))
  · exact isBlank_eq_false_of_isMarker (h.marks c hc)

lemma not_mem {c : Char} (hword : Text.isAsciiWord c = false) (hmark : isMarker c = false) :
    c ∉ name ++ marks := by
  intro hc
  rcases List.mem_append.1 hc with hc | hc
  · rw [h.name c hc] at hword
    cases hword
  · rw [h.marks c hc] at hmark
    cases hmark

/-- The markers are taken off the name. -/
lemma name_undecorate : (undecorate (name ++ marks)).name = name := by
  have htrim : Text.trim (name ++ marks) = name ++ marks :=
    Text.trim_eq_self (fun c hc => h.isBlank_eq_false (List.mem_of_head? hc))
      fun c hc => h.isBlank_eq_false (List.mem_of_getLast? hc)
  obtain ⟨w, hsplit, hw, hlast⟩ := Text.exists_dropRightWhile isMarker (name ++ marks)
  have hkept : Text.dropRightWhile isMarker (name ++ marks) = name := by
    rcases List.eq_nil_or_concat' name with rfl | ⟨u, c, rfl⟩
    · by_contra hne
      obtain ⟨u, c, hu⟩ := (List.eq_nil_or_concat' _).resolve_left hne
      have hc : c ∈ [] ++ marks := by
        rw [hsplit, hu]
        simp
      rw [List.nil_append] at hc
      have hmark := hlast c (by rw [hu, List.getLast?_concat])
      rw [h.marks c hc] at hmark
      cases hmark
    · rw [List.append_assoc, List.singleton_append]
      exact Text.dropRightWhile_append h.marks (isMarker_eq_false_of_isAsciiWord (h.name c (by simp)))
  have hname : Text.trim name = name :=
    Text.trim_eq_self (fun c hc => h.isBlank_eq_false (List.mem_append_left _ (List.mem_of_head? hc)))
      fun c hc => h.isBlank_eq_false (List.mem_append_left _ (List.mem_of_getLast? hc))
  unfold undecorate
  simp only [htrim, hkept, hname]

/-- A token is split behind its name and behind its markers. -/
lemma takeWhile_append {c : Char} (hword : Text.isAsciiWord c = false) (hmark : isMarker c = false) (t : Text) :
    (name ++ marks ++ c :: t).takeWhile Text.isAsciiWord = name ∧
      (name ++ marks ++ c :: t).dropWhile Text.isAsciiWord = marks ++ c :: t ∧
      (marks ++ c :: t).takeWhile isMarker = marks ∧ (marks ++ c :: t).dropWhile isMarker = c :: t := by
  have hstop : (marks ++ c :: t).takeWhile Text.isAsciiWord = [] ∧
      (marks ++ c :: t).dropWhile Text.isAsciiWord = marks ++ c :: t := by
    cases marks with
    | nil => simp [hword]
    | cons e marks => simp [isAsciiWord_eq_false_of_isMarker (h.marks e (List.mem_cons_self ..))]
  rw [List.append_assoc, List.takeWhile_append_of_pos h.name, List.dropWhile_append_of_pos h.name,
    List.takeWhile_append_of_pos h.marks, List.dropWhile_append_of_pos h.marks, hstop.1, hstop.2]
  simp [hmark]

/-! ## The forms of the two tokens -/

lemma form_shorthand (hname : name ≠ []) (hraw : raw ≠ []) (hclose : ']' ∉ raw) :
    form (shorthand name marks raw) = .shorthand (name ++ marks) raw := by
  obtain ⟨hword, hafter, hmarks, hrest⟩ := h.takeWhile_append (c := '[') (by decide) (by decide) (raw ++ [']'])
  have hbody := Text.forall_bne_of_not_mem hclose
  obtain ⟨c, name, rfl⟩ := List.exists_cons_of_ne_nil hname
  obtain ⟨e, raw, rfl⟩ := List.exists_cons_of_ne_nil hraw
  have hread : shorthand? (shorthand (c :: name) marks (e :: raw)) = some (c :: name ++ marks, e :: raw) := by
    unfold shorthand? shorthand
    simp only [hword, hafter, hmarks, hrest, List.takeWhile_append_of_pos hbody,
      List.dropWhile_append_of_pos hbody]
    simp
  rw [form, hread]

lemma shorthand?_typed (raw : Text) : shorthand? (typed name marks raw) = none := by
  obtain ⟨hword, hafter, -, hrest⟩ :=
    h.takeWhile_append (c := ':') (by decide) (by decide) ("enum[".toList ++ (raw ++ [']']))
  unfold shorthand? typed
  simp only [hword, hafter, hrest]
  cases name <;> rfl

lemma form_typed (hraw : ':' ∉ raw) :
    form (typed name marks raw) = .parts (name ++ marks) ("enum[".toList ++ (raw ++ [']'])) [] := by
  have hrest : ':' ∉ "enum[".toList ++ (raw ++ [']']) := by
    simp only [List.mem_append, hraw]
    decide
  rw [form, h.shorthand?_typed raw, typed, Text.splitOn_append _ _ (h.not_mem (by decide) (by decide)),
    Text.splitOn_of_not_mem hrest]

/-- A colon cuts the values. -/
lemma form_typed_of_mem (hraw : ':' ∈ raw) :
    ∃ start tag more, form (typed name marks raw) = .parts (name ++ marks) tag more ∧
      tag = "enum[".toList ++ start ∧ start ⊆ raw := by
  obtain ⟨start, rest, rfl, hstart⟩ := List.eq_append_cons_of_mem hraw
  have hcut : ':' ∉ "enum[".toList ++ start := by
    simp only [List.mem_append, hstart]
    decide
  have hsplit : "enum[".toList ++ (start ++ ':' :: rest ++ [']']) =
      ("enum[".toList ++ start) ++ ':' :: (rest ++ [']']) := by
    simp only [List.append_assoc, List.cons_append]
  refine ⟨start, _, Text.splitOn ':' (rest ++ [']']), ?_, rfl, List.subset_append_left _ _⟩
  rw [form, h.shorthand?_typed, typed, Text.splitOn_append _ _ (h.not_mem (by decide) (by decide)), hsplit,
    Text.splitOn_append _ _ hcut]

lemma exists_form_typed (raw : Text) :
    ∃ tag more, form (typed name marks raw) = .parts (name ++ marks) tag more := by
  by_cases hcolon : ':' ∈ raw
  · obtain ⟨start, tag, more, hform, -⟩ := h.form_typed_of_mem hcolon
    exact ⟨tag, more, hform⟩
  · exact ⟨_, _, h.form_typed hcolon⟩

end IsMarked

/-! ## What a cut notation is read as -/

lemma enumBody?_values (hclose : ']' ∉ raw) :
    enumBody? (Text.trim ("enum[".toList ++ (raw ++ [']']))) = some raw := by
  have hbody := Text.forall_bne_of_not_mem hclose
  have htrim : Text.trim ("enum[".toList ++ (raw ++ [']'])) = "enum[".toList ++ (raw ++ [']']) := by
    refine Text.trim_eq_self (fun c hc => ?_) fun c hc => ?_
    · obtain rfl : 'e' = c := Option.some.inj hc
      decide
    · rw [← List.append_assoc, List.getLast?_concat] at hc
      obtain rfl : ']' = c := Option.some.inj hc
      decide
  have htake : ("enum[".toList ++ (raw ++ [']'])).take 5 = "enum[".toList := rfl
  have hdrop : ("enum[".toList ++ (raw ++ [']'])).drop 5 = raw ++ [']'] := rfl
  have hlower : Text.lower "enum[".toList = "enum[".toList := by decide
  rw [htrim, enumBody?, htake, hdrop, if_pos hlower, List.dropWhile_append_of_pos hbody,
    List.takeWhile_append_of_pos hbody]
  simp

/-- An enumeration in the type position ends with its bracket. -/
lemma mem_of_enumBody? {t body : Text} (h : enumBody? t = some body) : ']' ∈ t := by
  unfold enumBody? at h
  split at h
  · split at h
    · rename_i hdrop
      have hmem : ']' ∈ (t.drop 5).dropWhile (· != ']') := by simp [hdrop]
      exact List.mem_of_mem_drop ((List.dropWhile_sublist _).subset hmem)
    · cases h
  · cases h

/-- A bracket in a tag survives its normalisation. -/
lemma bracket_mem_normalizeTag (h : '[' ∈ raw) : '[' ∈ normalizeTag raw := by
  have hlower : '[' ∈ Text.lower (Text.trim raw) :=
    Text.mem_lowerAfter (Text.mem_trim h (by decide)) (by decide) (by decide) []
  unfold normalizeTag
  simp only
  rw [if_neg fun hid => ?_]
  · exact hlower
  · rw [hid] at hlower
    exact absurd hlower (by decide)

lemma kind_readPlain (htag : tag ≠ enumTag) :
    ∃ f, (readPlain token d tag more).field? = some f ∧ ∀ values, f.kind ≠ .enumeration values := by
  simp only [readPlain]
  split
  · exact ⟨_, rfl, fun values h => by cases h⟩
  · refine ⟨_, rfl, fun values h => htag ?_⟩
    rw [← Kind.tag_ofTag tag]
    exact congrArg Kind.tag h

/-- **A tag with a bracket that is not closed** is the tag of a field without values. -/
lemma kind_readParts (depth : Int) (token : Text) (d : Decorated) (more : List Text) (hopen : '[' ∈ raw) (hclose : ']' ∉ raw) :
    ∃ f, (readParts depth token d raw more).field? = some f ∧ ∀ values, f.kind ≠ .enumeration values := by
  have hbody : enumBody? (Text.trim raw) = none := by
    rw [Option.eq_none_iff_forall_ne_some]
    exact fun body h => hclose (Text.trim_subset raw (mem_of_enumBody? h))
  have htag := bracket_mem_normalizeTag (Text.mem_trim hopen (by decide))
  have hne : ∀ t : Text, '[' ∉ t → normalizeTag (Text.trim raw) ≠ t := by
    rintro t ht rfl
    exact ht htag
  simp only [readParts, hbody]
  rw [if_neg (mt List.isEmpty_iff.1 (hne [] (by simp))), if_neg (hne arrayTag (by decide))]
  exact kind_readPlain (hne enumTag (by decide))

/-- Parts that give no field have no type. -/
lemma remarks_readParts (h : (readParts depth token d raw more).field? = none) :
    (readParts depth token d raw more).remarks = [.noType token] := by
  have hplain : ∀ tag more, (readPlain token d tag more).field? ≠ none := by
    intro tag more
    simp only [readPlain]
    split <;> exact Option.some_ne_none _
  have hobjects : ∀ parts, (readObjects depth token d parts).field? ≠ none := by
    intro parts
    simp only [readObjects]
    split <;> exact Option.some_ne_none _
  simp only [readParts] at h ⊢
  split at h
  · cases h
  split at h
  · rename_i htag
    rw [if_pos htag]
  split at h
  · split at h
    · exact absurd h (hplain _ _)
    split at h
    · exact absurd h (hobjects _)
    · cases h
  · exact absurd h (hplain _ _)

/-- A bracket in a name survives the removal of markers. -/
lemma bracket_mem_undecorate (h : '[' ∈ raw) : '[' ∈ (undecorate raw).name := by
  obtain ⟨w, hsplit, hw, -⟩ := Text.exists_dropRightWhile isMarker (Text.trim raw)
  have hmem := Text.mem_trim h (by decide)
  rw [hsplit, List.mem_append] at hmem
  refine Text.mem_trim (hmem.resolve_right fun hmark => ?_) (by decide)
  exact absurd (hw _ hmark) (by decide)

lemma isIdentity_of_bracket (h : '[' ∈ name) : Field.isIdentity name = false := by
  rw [Field.isIdentity, decide_eq_false_iff_not]
  intro hid
  have hlower : '[' ∈ Text.lower name := Text.mem_lowerAfter h (by decide) (by decide) []
  rw [hid] at hlower
  exact absurd hlower (by decide)

/-! ## Comparing the readings -/

namespace IsMarked

variable (h : IsMarked name marks)

include h

lemma read_shorthand (depth : Int) (hname : name ≠ []) (hraw : raw ≠ []) (hclose : ']' ∉ raw) :
    read depth (shorthand name marks raw) =
      if Field.isIdentity name then ⟨none, []⟩
      else ⟨some ((undecorate (name ++ marks)).field (enumeration (values raw)) []), []⟩ := by
  simp only [read, h.form_shorthand hname hraw hclose, h.name_undecorate]
  rw [if_neg (mt List.isEmpty_iff.1 hname)]

lemma read_typed (depth : Int) (hform : form (typed name marks raw) = .parts (name ++ marks) tag more)
    (hname : name ≠ []) :
    read depth (typed name marks raw) =
      if Field.isIdentity name then ⟨none, []⟩
      else readParts depth (typed name marks raw) (undecorate (name ++ marks)) tag more := by
  simp only [read, hform, h.name_undecorate]
  rw [if_neg (mt List.isEmpty_iff.1 hname)]

/-- Values without a colon are read alike. -/
lemma agrees_of_not_mem (depth : Int) (hname : name ≠ []) (hraw : raw ≠ []) (hclose : ']' ∉ raw)
    (hcolon : ':' ∉ raw) :
    (read depth (shorthand name marks raw)).Agrees (read depth (typed name marks raw)) := by
  have hparts : readParts depth (typed name marks raw) (undecorate (name ++ marks))
      ("enum[".toList ++ (raw ++ [']'])) [] =
        ⟨some ((undecorate (name ++ marks)).field (enumeration (values raw)) []), []⟩ := by
    simp only [readParts, enumBody?_values hclose]
  have heq : read depth (typed name marks raw) = read depth (shorthand name marks raw) := by
    rw [h.read_shorthand depth hname hraw hclose, h.read_typed depth (h.form_typed hcolon) hname, hparts]
  rw [heq]
  exact ⟨rfl, rfl⟩

lemma agrees_of_isIdentity (depth : Int) (hname : name ≠ []) (hraw : raw ≠ []) (hclose : ']' ∉ raw)
    (hid : Field.isIdentity name = true) :
    (read depth (shorthand name marks raw)).Agrees (read depth (typed name marks raw)) := by
  obtain ⟨tag, more, hform⟩ := h.exists_form_typed raw
  rw [h.read_shorthand depth hname hraw hclose, h.read_typed depth hform hname, if_pos hid, if_pos hid]
  exact ⟨rfl, rfl⟩

/-- Values with a colon are not. -/
lemma not_agrees_of_mem (depth : Int) (hname : name ≠ []) (hraw : raw ≠ []) (hclose : ']' ∉ raw)
    (hcolon : ':' ∈ raw) (hid : Field.isIdentity name = false) :
    ¬ (read depth (shorthand name marks raw)).Agrees (read depth (typed name marks raw)) := by
  obtain ⟨start, tag, more, hform, rfl, hstart⟩ := h.form_typed_of_mem hcolon
  have hopen : '[' ∈ "enum[".toList ++ start := List.mem_append_left _ (by decide)
  have hunclosed : ']' ∉ "enum[".toList ++ start := by
    rw [List.mem_append, not_or]
    exact ⟨by decide, fun hmem => hclose (hstart hmem)⟩
  obtain ⟨f, hf, hkind⟩ := kind_readParts depth (typed name marks raw) (undecorate (name ++ marks)) more hopen hunclosed
  have hnot : ¬ Field.isIdentity name = true := Bool.eq_false_iff.1 hid
  intro hagrees
  have hfield := hagrees.field
  rw [h.read_shorthand depth hname hraw hclose, h.read_typed depth hform hname, if_neg hnot, if_neg hnot,
    hf] at hfield
  exact hkind _ (congrArg Field.kind (Option.some.inj hfield)).symm

end IsMarked

lemma not_agrees_of_code {r s : Reading} {m m' : Remark} (hr : r.remarks = [m]) (hs : s.remarks = [m'])
    (hcode : m.code ≠ m'.code) : ¬ r.Agrees s := by
  intro hagrees
  have hfindings := hagrees.findings
  rw [Reading.findings, Reading.findings, hr, hs] at hfindings
  exact hcode (congrArg Prod.snd (List.cons.inj hfindings).1)

/-- Without a name in front, the values of the first notation are a name or no field at all. -/
lemma read_shorthand_nil (h : IsMarked [] marks) (depth : Int) (raw : Text) :
    (∃ f, (read depth (shorthand [] marks raw)).field? = some f) ∨
      ∃ m : Remark, (read depth (shorthand [] marks raw)).remarks = [m] ∧ m.code = "skipped_token".toList := by
  have hshorthand : shorthand? (shorthand [] marks raw) = none := by
    obtain ⟨hword, -⟩ := h.takeWhile_append (c := '[') (by decide) (by decide) (raw ++ [']'])
    unfold shorthand? shorthand
    simp only [hword]
  by_cases hcolon : ':' ∈ raw
  · obtain ⟨start, rest, rfl, hstart⟩ := List.eq_append_cons_of_mem hcolon
    have hcut : ':' ∉ [] ++ marks ++ '[' :: start := by
      rw [List.mem_append, not_or]
      exact ⟨h.not_mem (by decide) (by decide), by simp [hstart]⟩
    have hsplit : shorthand [] marks (start ++ ':' :: rest) =
        ([] ++ marks ++ '[' :: start) ++ ':' :: (rest ++ [']']) := by
      simp only [shorthand, List.append_assoc, List.cons_append]
    obtain ⟨tag, more, hmore⟩ := List.exists_cons_of_ne_nil (Text.splitOn_ne_nil ':' (rest ++ [']']))
    have hform : form (shorthand [] marks (start ++ ':' :: rest)) =
        .parts ([] ++ marks ++ '[' :: start) tag more := by
      rw [form, hshorthand, hsplit, Text.splitOn_append _ _ hcut, hmore]
    -- the colon leaves the bracket in the name, so the name is neither empty nor an identity
    have hbracket : '[' ∈ (undecorate ([] ++ marks ++ '[' :: start)).name := bracket_mem_undecorate (by simp)
    have hne : (undecorate ([] ++ marks ++ '[' :: start)).name ≠ [] := List.ne_nil_of_mem hbracket
    have hread : read depth (shorthand [] marks (start ++ ':' :: rest)) =
        readParts depth (shorthand [] marks (start ++ ':' :: rest)) (undecorate ([] ++ marks ++ '[' :: start))
          tag more := by
      simp only [read, hform]
      rw [if_neg (mt List.isEmpty_iff.1 hne), if_neg (Bool.eq_false_iff.1 (isIdentity_of_bracket hbracket))]
    rw [hread]
    cases hfield : (readParts depth (shorthand [] marks (start ++ ':' :: rest))
        (undecorate ([] ++ marks ++ '[' :: start)) tag more).field? with
    | some f => exact .inl ⟨f, rfl⟩
    | none => exact .inr ⟨_, remarks_readParts hfield, rfl⟩
  · have hwhole : ':' ∉ shorthand [] marks raw := by
      rw [shorthand, List.mem_append, not_or]
      exact ⟨h.not_mem (by decide) (by decide), by simp [hcolon]⟩
    have hform : form (shorthand [] marks raw) = .other := by
      rw [form, hshorthand, Text.splitOn_of_not_mem hwhole]
    simp only [read, hform]
    exact .inr ⟨_, rfl, rfl⟩

lemma not_agrees_nil (h : IsMarked [] marks) (depth : Int) (raw : Text) :
    ¬ (read depth (shorthand [] marks raw)).Agrees (read depth (typed [] marks raw)) := by
  have htyped : read depth (typed [] marks raw) = ⟨none, [.emptyName (typed [] marks raw)]⟩ := by
    obtain ⟨tag, more, hform⟩ := h.exists_form_typed raw
    simp only [read, hform, h.name_undecorate]
    rfl
  rw [htyped]
  rcases read_shorthand_nil h depth raw with ⟨f, hf⟩ | ⟨m, hm, hcode⟩
  · intro hagrees
    exact Option.some_ne_none f (hf.symm.trans hagrees.field)
  · refine not_agrees_of_code hm rfl ?_
    rw [hcode]
    exact (by decide : "skipped_token".toList ≠ "empty_name".toList)

/-- **The two notations of an enumeration** are read alike exactly if there is a name and the values hold
no colon, or the name is that of the identity. -/
theorem notations_agree_iff (h : IsMarked name marks) (hraw : raw ≠ []) (hclose : ']' ∉ raw) (depth : Int) :
    (read depth (shorthand name marks raw)).Agrees (read depth (typed name marks raw)) ↔
      name ≠ [] ∧ (':' ∉ raw ∨ Field.isIdentity name = true) := by
  by_cases hname : name = []
  · subst hname
    exact iff_of_false (not_agrees_nil h depth raw) fun hand => hand.1 rfl
  by_cases hid : Field.isIdentity name = true
  · exact iff_of_true (h.agrees_of_isIdentity depth hname hraw hclose hid) ⟨hname, .inr hid⟩
  by_cases hcolon : ':' ∈ raw
  · refine iff_of_false (h.not_agrees_of_mem depth hname hraw hclose hcolon (Bool.eq_false_iff.2 hid)) ?_
    rintro ⟨-, hnot | hidentity⟩
    · exact hnot hcolon
    · exact hid hidentity
  · exact iff_of_true (h.agrees_of_not_mem depth hname hraw hclose hcolon) ⟨hname, .inl hcolon⟩

/-- Blanks, quotes and opening brackets among the values make no difference. -/
theorem notations_agree_state :
    IsMarked "state".toList "?!".toList ∧ " new,,it's [done".toList ≠ [] ∧ ']' ∉ " new,,it's [done".toList ∧
      (read 1 (shorthand "state" "?!" " new,,it's [done")).Agrees
        (read 1 (typed "state" "?!" " new,,it's [done")) := by
  have h : IsMarked "state".toList "?!".toList :=
    ⟨List.all_eq_true.1 (by decide), List.all_eq_true.1 (by decide)⟩
  have hraw : " new,,it's [done".toList ≠ [] := by decide
  have hclose : ']' ∉ " new,,it's [done".toList := by decide
  exact ⟨h, hraw, hclose, (notations_agree_iff h hraw hclose 1).2 ⟨by decide, .inl (by decide)⟩⟩

/-- Times of day have colons: they are values of the first notation only. -/
theorem notations_disagree_slot :
    IsMarked "slot".toList [] ∧ "09:00,17:00".toList ≠ [] ∧ ']' ∉ "09:00,17:00".toList ∧
      ¬ (read 1 (shorthand "slot" [] "09:00,17:00")).Agrees (read 1 (typed "slot" [] "09:00,17:00")) := by
  have h : IsMarked "slot".toList [] := ⟨List.all_eq_true.1 (by decide), List.forall_mem_nil _⟩
  refine ⟨h, by decide, by decide, fun hagrees => ?_⟩
  have hkinds := congrArg (Option.map Field.kind) hagrees.field
  have hfirst : (read 1 (shorthand "slot" [] "09:00,17:00")).field?.map Field.kind =
      some (.enumeration (some ["09:00".toList, "17:00".toList])) := by decide
  have hsecond : (read 1 (typed "slot" [] "09:00,17:00")).field?.map Field.kind =
      some (.unknown "enum[09".toList) := by decide
  rw [hfirst, hsecond] at hkinds
  cases hkinds

end Scaffold.Token
