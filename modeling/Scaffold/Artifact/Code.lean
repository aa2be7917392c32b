import Scaffold.Text.Basic

/-!
# Lines of code

A generated file is a list of lines.  The pieces below write the punctuation of blocks and imports,
so that the files are described by what stands inside them.
-/

namespace Scaffold.Code

/-- An opening brace. -/
def lb : Text := ['{']

/-- A closing brace. -/
def rb : Text := ['}']

/-- A line that opens a block. -/
def opening (head : Text) : Text := head ++ [' ', '{']

/-- A line moved to the right. -/
def indent (width : Nat) (line : Text) : Text := List.replicate width ' ' ++ line

/-- An import of names. -/
def importNames (names : List Text) (source : Text) : Text :=
  "import " ++ Text.braced (Text.join ", " names) ++ " from '" ++ source ++ "';"

/-- An import of the default export. -/
def importDefault (name source : Text) : Text :=
  "import " ++ name ++ " from '" ++ source ++ "';"

/-- A block of lines that ends with an empty line. -/
def block (head : Text) (body : List Text) : List Text := opening head :: body ++ [rb, []]

end Scaffold.Code
