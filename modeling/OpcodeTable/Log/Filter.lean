import OpcodeTable.Log.Event
import OpcodeTable.Pattern
import OpcodeTable.Text.Space

/-!
# Log filters

Which lines of the log are shown.  A filter is a list of directives, written with commas between
them: the name of a level is the threshold of every part of the program, and `path=level` that of
the parts whose path begins with `path`.  A path by itself lets all levels through.  The directive
with the longest path decides, and where none applies nothing is shown.

Behind the directives there can be a slash and a pattern, which a line has to match besides.
-/

set_option autoImplicit false

namespace OpcodeTable
namespace Log

/-- The least severe level that is shown, if any is. -/
abbrev Threshold := Option Level

/-- Whether a level is shown under a threshold. -/
def Threshold.shows (threshold : Threshold) (level : Level) : Bool :=
  match threshold with
  | none => false
  | some least => level.rank ≤ least.rank

/-- The threshold with this name, in letters of any case. -/
def Threshold.ofName? (name : String) : Option Threshold :=
  match name.toLower with
  | "off" => some none
  | "error" => some (some .error)
  | "warn" => some (some .warn)
  | "info" => some (some .info)
  | "debug" => some (some .debug)
  | "trace" => some (some .trace)
  | _ => none

/-- The threshold of the parts whose path begins with `path`, or of all parts. -/
structure Directive where
  path : Option String
  threshold : Threshold
deriving DecidableEq, Repr

/-- Whether a directive applies to a part of the program. -/
def Directive.covers (directive : Directive) (origin : Origin) : Bool :=
  match directive.path with
  | none => true
  | some path => path.toList.isPrefixOf origin.path.toList

/-- The length of the path, zero for a directive that applies to all parts. -/
def Directive.length (directive : Directive) : Nat :=
  match directive.path with
  | none => 0
  | some path => path.length

/-- The directives in the order in which they are given, and the pattern. -/
structure Filter where
  directives : List Directive
  pattern : Option Pattern := none
deriving DecidableEq, Repr

/-- Gives the directive with the same path a new threshold where it stands, or adds a directive
behind the others. -/
def Directive.putInto (directive : Directive) : List Directive → List Directive
  | [] => [directive]
  | other :: rest =>
    if other.path = directive.path then directive :: rest else other :: directive.putInto rest

/-- The one of two directives that decides: the one with the longer path, or else the later. -/
def Directive.decisive (origin : Origin) (earlier : Option Directive) (later : Directive) :
    Option Directive :=
  if ¬later.covers origin then earlier
  else
    match earlier with
    | none => some later
    | some directive => if directive.length ≤ later.length then some later else some directive

namespace Filter

/-- Whether the directives let a line through. -/
def lets (filter : Filter) (event : Event) : Bool :=
  match filter.directives.foldl (Directive.decisive event.origin) none with
  | none => false
  | some directive => directive.threshold.shows event.level

/-- Whether a line is shown. -/
def admits (filter : Filter) (event : Event) : Bool :=
  filter.lets event && filter.pattern.all (·.occursIn event.message)

/-- What cannot be understood in a filter. -/
inductive Problem where
  /-- An item that is no directive, or its level. -/
  | directive (text : String)
  /-- There is more than one slash, so that all of it is left aside. -/
  | slashes (text : String)
  | pattern (text : String) (refusal : Pattern.Refusal)
deriving DecidableEq, Repr

/-- What is said of a problem. -/
def Problem.message : Problem → String
  | .directive text => "invalid logging spec '" ++ text ++ "'"
  | .slashes text => "invalid logging spec '" ++ text ++ "' (too many '/'s)"
  | .pattern text refusal => "invalid regex filter - " ++ refusal.message text

/-- Reads a directive. -/
def directive (item : String) : Except Problem Directive :=
  match item.splitOn "=" with
  | [word] =>
    match Threshold.ofName? word with
    | some threshold => .ok ⟨none, threshold⟩
    | none => .ok ⟨some word, some .trace⟩
  | [path, level] =>
    if trimSpace level = "" then .ok ⟨some path, some .trace⟩
    else
      match Threshold.ofName? (trimSpace level) with
      | some threshold => .ok ⟨some path, threshold⟩
      | none => .error (.directive (trimSpace level))
  | _ => .error (.directive item)

/-- The directives that show the most severe lines of all parts. -/
def severe : List Directive :=
  [⟨none, some .error⟩]

/-- The filter in force where none is asked for. -/
def standard : Filter :=
  { directives := [⟨none, some .info⟩] }

/-- Adds the directive that was read, if one was. -/
def add (directives : List Directive) (read : Except Problem Directive) : List Directive :=
  match read with
  | .ok directive => directive.putInto directives
  | .error _ => directives

/-- What could not be understood, if anything. -/
def problem? {α : Type} : Except Problem α → Option Problem
  | .ok _ => none
  | .error problem => some problem

/-- Reads the directives, and lists what in them cannot be understood.  Without any directive only
the most severe lines are shown. -/
def parseDirectives (text : String) : List Directive × List Problem :=
  let items := ((text.splitOn ",").map trimSpace).filter (· ≠ "")
  let read := items.map directive
  let directives := read.foldl add []
  (if directives = [] then severe else directives, read.filterMap problem?)

/-- Reads a pattern. -/
def parsePattern (text : String) : Except Problem Pattern :=
  (Pattern.read text).mapError (.pattern text)

/-- Reads a filter, and lists what in it cannot be understood. -/
def parse (text : String) : Filter × List Problem :=
  match text.splitOn "/" with
  | [only] =>
    let (directives, problems) := parseDirectives only
    ({ directives }, problems)
  | [first, second] =>
    let (directives, problems) := parseDirectives first
    let pattern := parsePattern second
    ({ directives, pattern := pattern.toOption }, problems ++ (problem? pattern).toList)
  | _ => ({ directives := severe }, [.slashes text])

end Filter

end Log
end OpcodeTable
