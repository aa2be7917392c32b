import Scaffold.Text.Quoted

/-!
# Reading arguments

A grammar has options, which start with a dash, and one slot for what else is given.  Options may
stand anywhere and take their value from the next argument or from their own text; short options may
be run together.  What a grammar does not know is kept in order, because field tokens are among it.

Arguments are first told apart, each one by itself, and then consumed from left to right.
-/

namespace Scaffold.CommandLine

/-- An option: its spellings, and whether it takes a value. -/
structure Opt where
  spellings : List Text
  takesValue : Bool
  deriving DecidableEq, Repr

/-- What a grammar takes besides options. -/
inductive Slot where
  /-- The first argument and everything after it, options included. -/
  | rest
  /-- One argument that has to be given. -/
  | one (name : Text)
  /-- Any number of arguments in a row. -/
  | many
  /-- No argument. -/
  | nothing
  deriving DecidableEq, Repr

/-- A grammar, with the name under which it reports errors. -/
structure Grammar where
  program : Text
  opts : List Opt
  slot : Slot

/-- Why arguments are refused. -/
inductive Complaint where
  | noValue (opt : Opt)
  | unusedValue (opt : Opt) (value : Text)
  | missing (name : Text)
  | badChoice (choice : Text) (choices : List Text)
  deriving DecidableEq, Repr

namespace Complaint

/-- The name of an option in a message. -/
def optName (o : Opt) : Text := Text.join ['/'] o.spellings

/-- A complaint in words. -/
def message : Complaint → Text
  | noValue o => "argument " ++ optName o ++ ": expected one argument"
  | unusedValue o value =>
    "argument " ++ optName o ++ ": ignored explicit argument " ++ Text.quoted value
  | missing name => "the following arguments are required: " ++ name
  | badChoice choice choices =>
    "argument COMMAND: invalid choice: " ++ Text.quoted choice ++ " (choose from " ++
      Text.join ", " (choices.map Text.quoted) ++ ")"

end Complaint

/-! ## Telling arguments apart -/

/-- An argument: a word, the mark after which all are words, a known option with the spelling used
and the text attached to it, or an unknown option. -/
inductive Argument where
  | word (text : Text)
  | separator
  | known (opt : Opt) (spelling : Text) (attached : Option Text)
  | unknown (text : Text)

/-- Whether an argument is a known or an unknown option. -/
def Argument.isOption : Argument → Bool
  | known _ _ _ | unknown _ => true
  | _ => false

/-- The mark after which all arguments are words. -/
def separatorText : Text := "--"

namespace Grammar

/-- The option with a spelling. -/
def find? (g : Grammar) (spelling : Text) : Option Opt :=
  g.opts.find? fun o => spelling ∈ o.spellings

/-- Whether a text looks like a negative number. -/
def isNegativeNumber : Text → Bool
  | '-' :: body =>
    match body.takeWhile Text.isAsciiDigit, body.dropWhile Text.isAsciiDigit with
    | _ :: _, [] => true
    | _, '.' :: places => !places.isEmpty && places.all Text.isAsciiDigit
    | _, _ => false
  | _ => false

/-- An option whose value is attached with an equals sign. -/
def attached? (g : Grammar) (t : Text) : Option Argument :=
  match t.dropWhile (· != '=') with
  | _ :: value =>
    let spelling := t.takeWhile (· != '=')
    (g.find? spelling).map fun o => .known o spelling (some value)
  | [] => none

/-- A short option with text attached to it. -/
def short? (g : Grammar) : Text → Option Argument
  | '-' :: c :: more =>
    if c = '-' then none else (g.find? ['-', c]).map fun o => .known o ['-', c] (some more)
  | _ => none

/-- Tells one argument apart. -/
def classify (g : Grammar) (t : Text) : Argument :=
  match t with
  | '-' :: _ :: _ =>
    match g.find? t with
    | some o => .known o t none
    | none =>
      match (g.attached? t).or (g.short? t) with
      | some a => a
      | none => if isNegativeNumber t || t.contains ' ' then .word t else .unknown t
  | t => .word t

/-- Tells arguments apart; after the separator all are words. -/
def arguments (g : Grammar) : List Text → List Argument
  | [] => []
  | t :: rest =>
    if t = separatorText then .separator :: rest.map .word
    else g.classify t :: arguments g rest

end Grammar

/-! ## Consuming arguments -/

/-- What was read: options with their values, what fills the slot, and what is unknown. -/
structure Reading where
  given : List (Opt × Text) := []
  filled : Option (List Text) := none
  extras : List Text := []

namespace Reading

/-- Whether an option was given. -/
def has (r : Reading) (o : Opt) : Bool := r.given.any fun g => g.1 = o

/-- How often an option was given. -/
def count (r : Reading) (o : Opt) : Nat := (r.given.filter fun g => g.1 = o).length

/-- The last value of an option. -/
def value? (r : Reading) (o : Opt) : Option Text :=
  ((r.given.filter fun g => g.1 = o).getLast?).map Prod.snd

end Reading

/-- How many arguments fill a slot: separators may stand around a single word, and a run of words
may hold them anywhere. -/
def Slot.extent : Slot → List (Argument × Text) → Option Nat
  | .rest, args =>
    match args.dropWhile fun a => a.1 matches .separator with
    | (.word _, _) :: _ => some args.length
    | _ => none
  | .one _, args =>
    let before := (args.takeWhile fun a => a.1 matches .separator).length
    match args.drop before with
    | (.word _, _) :: after =>
      some (before + 1 + (after.takeWhile fun a => a.1 matches .separator).length)
    | _ => none
  | .many, args => some (args.takeWhile fun a => !a.1.isOption).length
  | .nothing, _ => none

/-- The texts that fill a slot; the first separator among them does not count, except where
everything is passed on. -/
def Slot.texts (s : Slot) (taken : List Text) : List Text :=
  match s with
  | .rest => taken
  | _ => taken.erase separatorText

/-- The text after a short option as more options that are run together with it. -/
def runTogether (g : Grammar) (o : Opt) (attached : Text) : Nat →
    Except Complaint (List (Opt × Text) × Option Opt)
  | 0 => .error (.unusedValue o attached)
  | bound + 1 =>
    match attached with
    | [] => .error (.unusedValue o attached)
    | c :: more =>
      match g.find? ['-', c] with
      | none => .error (.unusedValue o attached)
      | some next =>
        if next.takesValue then
          match more with
          | [] => .ok ([(o, [])], some next)
          | more => .ok ([(o, []), (next, more)], none)
        else
          match more with
          | [] => .ok ([(o, []), (next, [])], none)
          | more => (runTogether g next more bound).map fun (given, last) => ((o, []) :: given, last)

/-- The options that an argument stands for, with their values; the last one may still need the next
argument as its value. -/
def options (g : Grammar) (o : Opt) (spelling : Text) (attached : Option Text) :
    Except Complaint (List (Opt × Text) × Option Opt) :=
  match o.takesValue, attached with
  | true, none => .ok ([], some o)
  | true, some value => .ok ([(o, value)], none)
  | false, none => .ok ([(o, [])], none)
  | false, some value =>
    if Text.startsWith ['-', '-'] spelling then .error (.unusedValue o value)
    else runTogether g o value value.length

/-- Consumes arguments from left to right.  `stops` tells which options end the reading. -/
def consume (g : Grammar) (stops : Opt → Bool) (bound : Nat) (r : Reading)
    (args : List (Argument × Text)) : Except Complaint Reading :=
  match bound with
  | 0 => .ok r
  | bound + 1 =>
    match r.filled, g.slot.extent args, args.any fun a => a.1.isOption with
    -- no option is left, so the rest is for the slot, or too much
    | none, some n, false =>
      .ok { r with filled := some (g.slot.texts ((args.take n).map Prod.snd)),
                   extras := r.extras ++ (args.drop n).map Prod.snd }
    | _, _, false => .ok { r with extras := r.extras ++ args.map Prod.snd }
    | filled, extent, true =>
      match args with
      | [] => .ok r
      | (.unknown t, _) :: rest =>
        consume g stops bound { r with extras := r.extras ++ [t] } rest
      | (.known o spelling attached, _) :: rest =>
        match options g o spelling attached with
        | .error c => .error c
        | .ok (given, none) =>
          let r := { r with given := r.given ++ given }
          -- an option that shows something ends the reading, whatever comes behind it
          if given.any fun x => stops x.1 then .ok r else consume g stops bound r rest
        | .ok (given, some last) =>
          match rest with
          | (.word value, _) :: rest =>
            consume g stops bound { r with given := r.given ++ given ++ [(last, value)] } rest
          | _ => .error (.noValue last)
      | _ :: _ =>
        match filled, extent with
        | none, some (n + 1) =>
          consume g stops bound
            { r with filled := some (g.slot.texts ((args.take (n + 1)).map Prod.snd)) }
            (args.drop (n + 1))
        | _, _ =>
          let words := args.takeWhile fun a => !a.1.isOption
          consume g stops bound { r with extras := r.extras ++ words.map Prod.snd }
            (args.drop words.length)

/-- Reads arguments.  A slot for one argument has to be filled, unless an option ended the reading
before. -/
def Grammar.read (g : Grammar) (stops : Opt → Bool) (texts : List Text) :
    Except Complaint Reading := do
  let r ← consume g stops (texts.length + 1) {} ((g.arguments texts).zip texts)
  match g.slot, r.filled with
  | .one name, none =>
    if r.given.any fun x => stops x.1 then return r else throw (.missing name)
  | _, _ => return r

end Scaffold.CommandLine
