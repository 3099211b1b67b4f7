import OpcodeTable.Pattern.Tree

/-!
# Faults of a pattern

What is wrong with a pattern that cannot be used, and where.  The message shows the pattern with
the place marked below it; a pattern of several lines is shown between rules and with the lines
numbered.
-/

set_option autoImplicit false

namespace OpcodeTable
namespace Pattern

/-- The ways in which a pattern can be wrong. -/
inductive Reason where
  | classEscape
  | classRangeOrder
  | classRangeBoundary
  | classUnclosed
  | decimalInvalid
  | hexEmpty
  | hexNoCharacter
  | hexInvalidDigit
  | escapeCutOff
  | escapeUnknown
  | flagDanglingNegation
  | flagDuplicate
  | flagRepeatedNegation
  | flagCutOff
  | flagUnknown
  | groupNameDuplicate
  | groupNameEmpty
  | groupNameCharacter
  | groupNameCutOff
  | groupUnclosed
  | groupUnopened
  | tooDeep
  | repetitionOrder
  | repetitionCountEmpty
  | repetitionUnclosed
  | repetitionOfNothing
  | wordBoundaryUnclosed
  | wordBoundaryUnknown
  | wordBoundaryCutOff
  | propertyInvalid
  | backreference
  | lookAround
  | wideNotAllowed
  | invalidUtf8
  | propertyUnknown
  | propertyValueUnknown
  | wideShorthand
  | wideCase
deriving DecidableEq, Repr

/-- What a reason says. -/
def Reason.text : Reason → String
  | .classEscape => "invalid escape sequence found in character class"
  | .classRangeOrder => "invalid character class range, the start must be <= the end"
  | .classRangeBoundary => "invalid range boundary, must be a literal"
  | .classUnclosed => "unclosed character class"
  | .decimalInvalid => "decimal literal invalid"
  | .hexEmpty => "hexadecimal literal empty"
  | .hexNoCharacter => "hexadecimal literal is not a Unicode scalar value"
  | .hexInvalidDigit => "invalid hexadecimal digit"
  | .escapeCutOff => "incomplete escape sequence, reached end of pattern prematurely"
  | .escapeUnknown => "unrecognized escape sequence"
  | .flagDanglingNegation => "dangling flag negation operator"
  | .flagDuplicate => "duplicate flag"
  | .flagRepeatedNegation => "flag negation operator repeated"
  | .flagCutOff => "expected flag but got end of regex"
  | .flagUnknown => "unrecognized flag"
  | .groupNameDuplicate => "duplicate capture group name"
  | .groupNameEmpty => "empty capture group name"
  | .groupNameCharacter => "invalid capture group character"
  | .groupNameCutOff => "unclosed capture group name"
  | .groupUnclosed => "unclosed group"
  | .groupUnopened => "unopened group"
  | .tooDeep =>
    "exceed the maximum number of nested parentheses/brackets (" ++ toString maxDepth ++ ")"
  | .repetitionOrder => "invalid repetition count range, the start must be <= the end"
  | .repetitionCountEmpty => "repetition quantifier expects a valid decimal"
  | .repetitionUnclosed => "unclosed counted repetition"
  | .repetitionOfNothing => "repetition operator missing expression"
  | .wordBoundaryUnclosed =>
    "special word boundary assertion is either unclosed or contains an invalid character"
  | .wordBoundaryUnknown =>
    "unrecognized special word boundary assertion, valid choices are: "
      ++ "start, end, start-half or end-half"
  | .wordBoundaryCutOff =>
    "found either the beginning of a special word boundary or a bounded repetition on a \\b "
      ++ "with an opening brace, but no closing brace"
  | .propertyInvalid => "invalid Unicode character class"
  | .backreference => "backreferences are not supported"
  | .lookAround => "look-around, including look-ahead and look-behind, is not supported"
  | .wideNotAllowed => "Unicode not allowed here"
  | .invalidUtf8 => "pattern can match invalid UTF-8"
  | .propertyUnknown => "Unicode property not found"
  | .propertyValueUnknown => "Unicode property value not found"
  | .wideShorthand =>
    "Unicode-aware Perl class not found (make sure the unicode-perl feature is enabled)"
  | .wideCase =>
    "Unicode-aware case insensitivity matching is not available "
      ++ "(make sure the unicode-case feature is enabled)"

/-- What is wrong with a pattern, where, and where else one has to look. -/
structure Fault where
  reason : Reason
  span : Span
  other : Option Span := none
deriving DecidableEq, Repr

/-- A place in a text of several lines, both counted from one. -/
structure Position where
  line : Nat
  column : Nat
deriving DecidableEq, Repr

/-- The position behind so many characters. -/
def Position.after (position : Position) : List Char → Position
  | [] => position
  | c :: rest =>
    if c = '\n' then Position.after ⟨position.line + 1, 1⟩ rest
    else Position.after ⟨position.line, position.column + 1⟩ rest

/-- The position of a character of the text. -/
def Position.of (text : List Char) (place : Nat) : Position :=
  Position.after ⟨1, 1⟩ (text.take place)

/-- The part of a text between two positions. -/
structure Mark where
  start : Position
  stop : Position
deriving DecidableEq, Repr

/-- Where a span stands in the text. -/
def Mark.of (text : List Char) (span : Span) : Mark :=
  ⟨Position.of text span.start, Position.of text span.stop⟩

/-- Whether a mark stands on one line. -/
def Mark.onOneLine (mark : Mark) : Bool :=
  mark.start.line = mark.stop.line

/-- The lines among the pieces between line feeds: each but the last one has ended with a line feed,
and may have had a carriage return before it. -/
def linesOf : List String → List String
  | [] => []
  | [last] => if last = "" then [] else [last]
  | line :: rest =>
    (if line.endsWith "\r" then (line.dropEnd 1).toString else line) :: linesOf rest

/-- Carets below the marked columns, from a column on. -/
def carets (column : Nat) : List Mark → String
  | [] => ""
  | mark :: marks =>
    let gap := mark.start.column - column
    let width := max 1 (mark.stop.column - mark.start.column)
    "".pushn ' ' gap ++ "".pushn '^' width ++ carets (column + gap + width) marks

/-- Two marks in the order in which they stand. -/
def inOrder (marks : List Mark) : List Mark :=
  marks.mergeSort fun a b =>
    decide (a.start.line < b.start.line) || a.start.line = b.start.line
      && decide (a.start.column ≤ b.start.column)

/-- A line of the pattern, and the carets below it if there are marks on it. -/
def markedLine (margin : String) (indent : Nat) (line : String) (marks : List Mark) : String :=
  margin ++ line ++ "\n"
    ++ (if marks = [] then "" else "".pushn ' ' indent ++ carets 1 marks ++ "\n")

/-- The lines of a pattern from the one with this number on, numbered and marked. -/
def numberedLines (width : Nat) (marks : List Mark) (number : Nat) : List String → String
  | [] => ""
  | line :: lines =>
    let digits := toString number
    markedLine ("".pushn ' ' (width - digits.length) ++ digits ++ ": ") (width + 2) line
        (marks.filter fun mark => mark.onOneLine && mark.start.line = number)
      ++ numberedLines width marks (number + 1) lines

/-- The line that says on which lines a mark stands. -/
def Mark.across (mark : Mark) : String :=
  "on line " ++ toString mark.start.line ++ " (column " ++ toString mark.start.column
    ++ ") through line " ++ toString mark.stop.line ++ " (column "
    ++ toString (mark.stop.column - 1) ++ ")"

/-- The rule above and below a pattern of several lines. -/
def rule : String := "".pushn '~' 79 ++ "\n"

/-- What is wrong with a pattern, in words. -/
def Fault.message (pattern : String) (fault : Fault) : String :=
  let marks := inOrder ((fault.span :: fault.other.toList).map (Mark.of pattern.toList))
  let ending := "error: " ++ fault.reason.text
  if '\n' ∈ pattern.toList then
    let pieces := pattern.splitOn "\n"
    let long := marks.filter fun mark => !mark.onOneLine
    "regex parse error:\n" ++ rule
      ++ numberedLines (toString pieces.length).length marks 1 (linesOf pieces) ++ rule
      ++ (if long = [] then "" else "\n".intercalate (long.map Mark.across) ++ "\n") ++ ending
  else
    "regex parse error:\n" ++ markedLine "    " 4 pattern marks ++ ending

end Pattern
end OpcodeTable
