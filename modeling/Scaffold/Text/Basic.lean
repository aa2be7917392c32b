/-!
# Text

Everything this library reads, writes and prints is a `Text`, a list of characters.  Generated
files are concatenations and the scanners that read them back are structural recursions, so a list
is the form in which both sides of a statement meet without conversion; `String` appears only as
literals, through the coercion below, and at the outermost layer.

The module collects the operations that are not in the list library: looking for a phrase from
either end (`cut?`, `cutLast?`, `occurs`), splitting and joining at separators, and the decimal
writing of numbers.  Each operation is pinned by a lemma that says what it keeps.
-/

namespace Scaffold

/-- A text is a list of characters.  Characters are Unicode scalar values, so no text has a lone surrogate. -/
abbrev Text := List Char

instance : Coe String Text := ⟨String.toList⟩

instance : LawfulBEq Text := inferInstance

namespace Text

/-! ## Phrases -/

/-- Whether `phrase` occurs in a text. -/
def occurs (phrase : Text) : Text → Bool
  | [] => phrase.isEmpty
  | c :: rest => phrase.isPrefixOf (c :: rest) || occurs phrase rest

/-- The text before the first occurrence of a phrase, and the text from that occurrence on. -/
def cut? (phrase : Text) : Text → Option (Text × Text)
  | [] => if phrase.isEmpty then some ([], []) else none
  | c :: rest =>
    if phrase.isPrefixOf (c :: rest) then some ([], c :: rest)
    else (cut? phrase rest).map fun (before, after) => (c :: before, after)

/-- The text before the last occurrence of a phrase, and the text from that occurrence on. -/
def cutLast? (phrase : Text) : Text → Option (Text × Text)
  | [] => if phrase.isEmpty then some ([], []) else none
  | c :: rest =>
    match cutLast? phrase rest with
    | some (before, after) => some (c :: before, after)
    | none => if phrase.isPrefixOf (c :: rest) then some ([], c :: rest) else none

/-- Cutting a text loses nothing. -/
theorem append_of_cut? {phrase text before after : Text}
    (h : cut? phrase text = some (before, after)) : before ++ after = text := by
  induction text generalizing before with
  | nil => grind [cut?]
  | cons c rest ih =>
    simp only [cut?] at h
    split at h
    · grind
    · obtain ⟨⟨b, a⟩, hb, heq⟩ := Option.map_eq_some_iff.1 h
      grind

/-- Cutting a text at the last occurrence loses nothing. -/
theorem append_of_cutLast? {phrase text before after : Text}
    (h : cutLast? phrase text = some (before, after)) : before ++ after = text := by
  induction text generalizing before with
  | nil => grind [cutLast?]
  | cons c rest ih =>
    simp only [cutLast?] at h
    split at h <;> grind

/-! ## Separators -/

/-- Splits at every separator; there is always one piece more than there are separators. -/
def splitOn (separator : Char) : Text → List Text
  | [] => [[]]
  | c :: rest =>
    if c = separator then [] :: splitOn separator rest
    else match splitOn separator rest with
      | [] => [[c]]
      | piece :: pieces => (c :: piece) :: pieces

/-- Joins pieces with a separator between neighbours. -/
def join (separator : Text) : List Text → Text
  | [] => []
  | [piece] => piece
  | piece :: next :: pieces => piece ++ separator ++ join separator (next :: pieces)

/-- Lines as the text of a file, without a newline after the last one. -/
def lines (ls : List Text) : Text := join ['\n'] ls

@[simp] theorem join_nil (separator : Text) : join separator [] = [] := rfl

@[simp] theorem join_singleton (separator piece : Text) : join separator [piece] = piece := rfl

theorem join_cons_cons (separator piece next : Text) (pieces : List Text) :
    join separator (piece :: next :: pieces) =
      piece ++ separator ++ join separator (next :: pieces) := rfl

theorem splitOn_ne_nil (separator : Char) (text : Text) : splitOn separator text ≠ [] := by
  cases text with
  | nil => simp [splitOn]
  | cons c rest => grind [splitOn]

/-- Splitting is undone by joining with the same separator. -/
theorem join_splitOn (separator : Char) (text : Text) :
    join [separator] (splitOn separator text) = text := by
  induction text with
  | nil => rfl
  | cons c rest ih =>
    have hne := splitOn_ne_nil separator rest
    unfold splitOn
    match hs : splitOn separator rest with
    | [] => exact absurd hs hne
    | [piece] => grind [join]
    | piece :: next :: pieces => grind [join]

/-- Drops trailing characters that satisfy a test. -/
def dropRightWhile (p : Char → Bool) : Text → Text
  | [] => []
  | c :: rest =>
    match dropRightWhile p rest with
    | [] => if p c then [] else [c]
    | kept => c :: kept

/-- Whether a text ends with another one. -/
def endsWith (ending text : Text) : Bool := ending.isSuffixOf text

/-- Whether a text does not come after another one in the order of code points. -/
def notAfter : Text → Text → Bool
  | [], _ => true
  | _ :: _, [] => false
  | a :: s, b :: t => if a = b then notAfter s t else a.toNat < b.toNat

/-- Whether a text starts with another one. -/
def startsWith (beginning text : Text) : Bool := beginning.isPrefixOf text

/-- A text in braces, with a blank on both sides. -/
def braced (inner : Text) : Text := '{' :: ' ' :: inner ++ [' ', '}']

/-! ## Numbers -/

/-- A natural number in decimal. -/
def ofNat (n : Nat) : Text := Nat.toDigits 10 n

/-- An integer in decimal, with a sign when it is negative. -/
def ofInt : Int → Text
  | .ofNat n => ofNat n
  | .negSucc n => '-' :: ofNat (n + 1)

/-- Inserts a comma before every third digit, counted from the right. -/
def groupThousands (digits : Text) : Text :=
  go digits.reverse []
where
  /-- Takes digits from the right end, three at a time. -/
  go : Text → Text → Text
    | a :: b :: c :: d :: rest, done => go (d :: rest) (',' :: c :: b :: a :: done)
    | short, done => short.reverse ++ done

/-- A natural number in decimal with thousands separators. -/
def grouped (n : Nat) : Text := groupThousands (ofNat n)

/-- Fills up with blanks on the right to a least width. -/
def padRight (width : Nat) (text : Text) : Text :=
  text ++ List.replicate (width - text.length) ' '

/-- Fills up with a character on the left to a least width. -/
def padLeft (width : Nat) (fill : Char) (text : Text) : Text :=
  List.replicate (width - text.length) fill ++ text

/-- The number of lines: every newline ends one, and a rest without newline is one more. -/
def countLines : Text → Nat
  | [] => 0
  | c :: rest => (c :: rest).count '\n' + (if endsWith ['\n'] (c :: rest) then 0 else 1)

end Text

end Scaffold
