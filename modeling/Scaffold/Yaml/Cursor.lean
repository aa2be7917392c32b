import Scaffold.Text.Basic
import Scaffold.Json.Reader

/-!
# Blanks, quotes and plain text

A cursor is a place in a text: the column, what follows, and whether a line has ended since the last
token.  The functions of this module move it over what lies between tokens and over scalars.  A
scalar that runs over several lines is folded: a single line end becomes a blank, and of several the
first one is dropped.
-/

namespace Scaffold.Yaml

/-- Whether a character ends a line. -/
def isBreak (c : Char) : Bool :=
  c == '\n' || c == '\x85' || c == '\u2028' || c == '\u2029'

/-- How the end of a line is kept. -/
def normalBreak (c : Char) : Char := if c = '\x85' then '\n' else c

/-- Whether a text is empty or starts with a blank or the end of a line. -/
def endsWord : Text → Bool
  | [] => true
  | c :: _ => c == ' ' || c == '\t' || isBreak c

/-- A place in a text. -/
structure Cursor where
  column : Nat
  rest : Text
  broke : Bool

namespace Cursor

/-- Moves over blanks, line ends and comments. -/
def skipFrom (comment : Bool) (column : Nat) (broke : Bool) : Text → Cursor
  | [] => ⟨column, [], broke⟩
  | c :: rest =>
    if isBreak c then skipFrom false 0 true rest
    else if comment || c == '#' then skipFrom true column broke rest
    else if c = ' ' then skipFrom false (column + 1) broke rest
    else ⟨column, c :: rest, broke⟩

/-- The next token. -/
def skip (c : Cursor) : Cursor := skipFrom false c.column c.broke c.rest

/-- The next token after a token that ends here. -/
def after (column : Nat) (rest : Text) : Cursor := skipFrom false column false rest

/-- Whether a line starts with the mark of a document's start or end. -/
def isMark (mark line : Text) : Bool := Text.startsWith mark line && endsWord (line.drop 3)

/-- Whether a line starts with any of the two marks. -/
def isAnyMark (line : Text) : Bool := isMark "---" line || isMark "..." line

/-- Whether nothing more of the document follows. -/
def atEnd (c : Cursor) : Bool :=
  c.rest.isEmpty || (c.broke && c.column == 0 && isAnyMark c.rest)

/-- Whether an item of a list starts here. -/
def atDash (c : Cursor) : Bool :=
  match c.rest with
  | '-' :: rest => endsWord rest
  | _ => false

/-- The text after a colon that separates a key from its value. -/
def afterColon? (c : Cursor) : Option Text :=
  match c.rest with
  | ':' :: rest => if endsWord rest then some rest else none
  | _ => none

/-- The greatest number of characters of a key. -/
def keyLimit : Nat := 1024

/-- Whether the text between two places may be a key: it is on one line and not too long. -/
def mayBeKey (start stop : Cursor) : Bool :=
  let between := start.rest.take (start.rest.length - stop.rest.length)
  !between.any isBreak && between.length ≤ keyLimit

end Cursor

/-! ## Folding -/

/-- The ends of lines and the blanks between them: what is kept of the ends, and what follows with
its column.  Without a result the next line is a mark. -/
def breaks? (blank : Char → Bool) (column : Nat) : Text → Option (Text × Nat × Text)
  | [] => some ([], column, [])
  | c :: rest =>
    if column = 0 && Cursor.isAnyMark (c :: rest) then none
    else if blank c then breaks? blank (column + 1) rest
    else if isBreak c then
      (breaks? blank 0 rest).map fun (kept, after) => (normalBreak c :: kept, after)
    else some ([], column, c :: rest)

/-- What folded lines leave of their ends. -/
def folded : Text → Text
  | ['\n'] => [' ']
  | '\n' :: kept => kept
  | kept => kept

/-! ## Plain scalars -/

/-- The marks that end a plain scalar inside brackets. -/
def isFlowMark (c : Char) : Bool := c ∈ [',', '?', '[', ']', '{', '}']

/-- Whether a plain scalar ends before a colon that is followed by a text. -/
def endsBeforeColon (flow : Bool) (rest : Text) : Bool :=
  endsWord rest ||
    (flow && match rest with
      | c :: _ => c ∈ [',', '[', ']', '{', '}']
      | [] => false)

/-- The characters of a plain scalar up to a blank or a mark that ends it, and the rest. -/
def word (flow : Bool) : Text → Text × Text
  | [] => ([], [])
  | c :: rest =>
    if c == ' ' || c == '\t' || isBreak c || (c == ':' && endsBeforeColon flow rest) ||
        (flow && isFlowMark c) then ([], c :: rest)
    else
      let (more, after) := word flow rest
      (c :: more, after)

/-- Characters that start no plain scalar, unless a character follows that makes them part of one. -/
def isIndicator (c : Char) : Bool :=
  c ∈ ['-', '?', ':', ',', '[', ']', '{', '}', '#', '&', '*', '!', '|', '>', '\'', '"', '%', '@',
    Char.ofNat 96]

/-- Whether a plain scalar starts here. -/
def startsPlain (flow : Bool) : Text → Bool
  | [] => false
  | c :: rest =>
    if c == ' ' || c == '\t' || isBreak c then false
    else if !isIndicator c then true
    else !endsWord rest && (c == '-' || (!flow && (c == '?' || c == ':')))

/-- A plain scalar and the place after it.  Lines that go on with it stand at least at column
`least`; `gap` is what stands between it and the words before.  The bound counts words. -/
def plainWithin (bound : Nat) (flow : Bool) (least : Nat) (gap : Text) (c : Cursor) :
    Text × Cursor :=
  match bound with
  | 0 => ([], c)
  | bound + 1 =>
    if Text.startsWith ['#'] c.rest then ([], c)
    else match word flow c.rest with
      | ([], _) => ([], c)
      | (start, rest) =>
        let column := c.column + start.length
        let blanks := rest.takeWhile (· == ' ')
        let afterBlanks := rest.dropWhile (· == ' ')
        let next : Option (Text × Cursor) := match afterBlanks with
          | [] => none
          | b :: _ =>
            if isBreak b then
              (breaks? (· == ' ') (column + blanks.length) afterBlanks).map
                fun (kept, column, rest) => (folded kept, ⟨column, rest, true⟩)
            else if blanks.isEmpty then none
            else some (blanks, ⟨column + blanks.length, afterBlanks, false⟩)
        match next with
        | none => (gap ++ start, ⟨column, rest, false⟩)
        | some (fill, c) =>
          if c.broke && !flow && c.column < least then (gap ++ start, c)
          else match plainWithin bound flow least fill c with
            | ([], c) => (gap ++ start, c)
            | (more, c) => (gap ++ start ++ more, c)

/-- A plain scalar and the place after it. -/
def plain (flow : Bool) (least : Nat) (c : Cursor) : Text × Cursor :=
  plainWithin c.rest.length flow least [] c

/-! ## Quoted scalars -/

/-- The character of a one-letter escape. -/
def simpleEscape? : Char → Option Char
  | '0' => some (Char.ofNat 0)
  | 'a' => some '\x07'
  | 'b' => some '\x08'
  | 't' => some '\t'
  | '\t' => some '\t'
  | 'n' => some '\n'
  | 'v' => some '\x0b'
  | 'f' => some '\x0c'
  | 'r' => some '\r'
  | 'e' => some '\x1b'
  | ' ' => some ' '
  | '"' => some '"'
  | '\\' => some '\\'
  | '/' => some '/'
  | 'N' => some '\x85'
  | '_' => some '\xa0'
  | 'L' => some '\u2028'
  | 'P' => some '\u2029'
  | _ => none

/-- How many hexadecimal digits an escape takes. -/
def escapeWidth? : Char → Option Nat
  | 'x' => some 2
  | 'u' => some 4
  | 'U' => some 8
  | _ => none

/-- The character with a code point in hexadecimal. -/
def codePoint? (digits : Text) : Option Char := do
  let n ← digits.foldlM (fun n c => (Json.hexValue? c).map fun d => n * 16 + d) 0
  if n.isValidChar then some (Char.ofNat n) else none

/-- What a backslash and the text after it stand for, and the rest. -/
def escape? (s : Text) : Option (Text × Text) :=
  match s with
  | [] => none
  | c :: rest =>
    match simpleEscape? c, escapeWidth? c with
    | some d, _ => some ([d], rest)
    | none, some width =>
      if rest.length < width then none
      else (codePoint? (rest.take width)).map fun d => ([d], rest.drop width)
    | none, none =>
      if isBreak c then
        (breaks? (fun c => c == ' ' || c == '\t') 0 rest).map fun (kept, _, after) => (kept, after)
      else none

/-- A quoted scalar up to its closing quote, and the rest. -/
def quotedWithin (bound : Nat) (quote : Char) (s : Text) : Option (Text × Text) :=
  match bound, s with
  | 0, _ | _, [] => none
  | bound + 1, c :: rest =>
    if c = quote then
      match rest with
      | d :: more =>
        if quote = '\'' && d = '\'' then
          (quotedWithin bound quote more).map fun (t, rest) => ('\'' :: t, rest)
        else some ([], rest)
      | [] => some ([], [])
    else if c = '\\' && quote = '"' then do
      let (text, rest) ← escape? rest
      let (more, rest) ← quotedWithin bound quote rest
      return (text ++ more, rest)
    else if c == ' ' || c == '\t' || isBreak c then do
      let isSpace (c : Char) : Bool := c == ' ' || c == '\t'
      let blanks := (c :: rest).takeWhile isSpace
      let afterBlanks := (c :: rest).dropWhile isSpace
      let (text, rest) ← match afterBlanks with
        | [] => none
        | b :: more =>
          if isBreak b then
            (breaks? isSpace 0 more).map fun (kept, _, after) => (folded (normalBreak b :: kept), after)
          else some (blanks, b :: more)
      let (more, rest) ← quotedWithin bound quote rest
      return (text ++ more, rest)
    else (quotedWithin bound quote rest).map fun (t, rest) => (c :: t, rest)

/-- A quoted scalar, given the text after its opening quote, and the rest. -/
def quoted? (quote : Char) (s : Text) : Option (Text × Text) := quotedWithin s.length quote s

end Scaffold.Yaml
