/-
# Stage bodies

The entry function of a stage as a list of lines. A line knows what it says and how deep it is
indented: one tab inside the function and one more for each open block.

* `Line.text` writes what a line says, `IndentedLine.text` the line with its indentation;
* `Body.text` writes the function, with its closing brace once the body is closed.
-/
import GlslEmit.Text.Join
import GlslEmit.Spelling.Value
import GlslEmit.Resource.SubIndex

namespace GlslEmit

/-- What opens a block. -/
inductive Opener where
  | ifThen (condition : String)
  | elseIf (condition : String)
  | otherwise
  deriving DecidableEq

/-- The text of an opener, with the brace that its block begins with. -/
def Opener.text : Opener → String
  | ifThen condition => "if (" ++ condition ++ ") \x7b"
  | elseIf condition => "else if (" ++ condition ++ ") \x7b"
  | otherwise => "else \x7b"

/-- What one line of a body says. -/
inductive Line where
  | declaration (token name : String) (arraySize : UInt32)
  | assignment (left operator right : String)
  /-- An image store with its value filled in. -/
  | store (statement : String)
  /-- A sub-index read into its local variable. -/
  | unpack (index : UInt32)
  | opener (o : Opener)
  | close
  deriving DecidableEq

/-- The text of a line, without indentation. -/
def Line.text : Line → String
  | declaration token name arraySize => token ++ " " ++ name ++ arraySuffix arraySize ++ ";"
  | assignment left operator right => left ++ " " ++ operator ++ " " ++ right ++ ";"
  | store statement => statement ++ ";"
  | unpack index => "uint " ++ subIndexLocal index ++ " = " ++ (SubIndexPlace.of index).text ++ ";"
  | opener o => o.text
  | close => "\x7d"

/-- A line at its depth: 1 directly inside the entry function. -/
structure IndentedLine where
  depth : Nat
  line : Line
  deriving DecidableEq

/-- As many tabs as the depth says. -/
def indentation : Nat → String
  | 0 => ""
  | n + 1 => "\t" ++ indentation n

/-- The text of a line with its indentation and its end. -/
def IndentedLine.text (l : IndentedLine) : String := indentation l.depth ++ l.line.text ++ "\n"

/-- A line that reads a sub-index declares its local variable. -/
theorem IndentedLine.text_unpack (depth : Nat) (index : UInt32) :
    IndentedLine.text ⟨depth, .unpack index⟩ =
      indentation depth ++ "uint _bidx" ++ toString index ++ "_ = " ++
        (SubIndexPlace.of index).text ++ ";\n" := by
  have hword : "uint " ++ "_bidx" = "uint _bidx" := by decide
  have hequals : "_" ++ " = " = "_ = " := by decide
  have hend : ";" ++ "\n" = ";\n" := by decide
  rw [IndentedLine.text, Line.text, subIndexLocal, ← hword, ← hequals, ← hend]
  simp only [String.append_assoc]

/-- The entry function of a stage, as far as it is written. -/
structure Body where
  lines : List IndentedLine
  /-- Whether the closing brace is written. -/
  closed : Bool
  deriving DecidableEq

/-- The start of an entry function. -/
def entryOpen : String := "void main()\n\x7b\n"

/-- The end of an entry function. -/
def entryClose : String := "\x7d\n\n"

namespace Body

/-- An entry function that has just been opened. -/
def fresh : Body := ⟨[], false⟩

/-- Adds a line at the end. -/
def write (b : Body) (depth : Nat) (line : Line) : Body :=
  { b with lines := b.lines ++ [⟨depth, line⟩] }

/-- Writes the closing brace. -/
def close (b : Body) : Body := { b with closed := true }

/-- The text of the entry function. -/
def text (b : Body) : String :=
  entryOpen ++ joinTexts (b.lines.map IndentedLine.text) ++ (if b.closed then entryClose else "")

/-- A further line adds its own text at the end of an open body. -/
theorem text_write {b : Body} (h : b.closed = false) (depth : Nat) (line : Line) :
    (b.write depth line).text = b.text ++ IndentedLine.text ⟨depth, line⟩ := by
  simp [text, write, h, joinTexts_append, joinTexts, String.append_assoc]

end Body

end GlslEmit
