/-
# The report

What `--explain` prints: the template, its placeholders with their places, literals and filters, and
the result of filling it.  Every part has a color, which shows only when colors are on.
-/
import Stencil.Engine.Fill
import Stencil.Template.Piece
import Stencil.Text.Quoted

namespace Stencil.Cli.Report

/-! ## 1. Colors -/

/-- The styles of the report. -/
inductive Style
  | dim
  | bold
  | red
  | green
  | yellow
  | blue
  | cyan
  | gray
  deriving DecidableEq, Repr

/-- The number of a style in an escape sequence. -/
def Style.code : Style → String
  | bold => "1"
  | dim => "2"
  | red => "31"
  | green => "32"
  | yellow => "33"
  | blue => "34"
  | cyan => "36"
  | gray => "90"

/-- A text in a style, if colors are on. -/
def paint (color : Bool) (style : Style) (text : String) : String :=
  if color then "\x1b[" ++ style.code ++ "m" ++ text ++ "\x1b[0m" else text

/-! ## 2. Parts -/

/-- The arguments of a call as they were understood; an unset slot shows as nothing. -/
def argumentsText (args : List Slot) : String :=
  if args.isEmpty then ""
  else
    "(" ++ ", ".intercalate (args.map fun slot => (slot.map Json.print).getD "") ++ ")"

/-- The line of a filter call. -/
def callLine (color known : Bool) (call : Call) : String :=
  let status :=
    if known then paint color .green "✓" else paint color .dim "✗ unknown, skipped"
  "      " ++ paint color .dim "|" ++ " " ++ paint color .blue call.name
    ++ paint color .dim (argumentsText call.args) ++ " " ++ status

/-- The lines of a placeholder. -/
def placeholderLines (color : Bool) (knows : String → Bool) (index : Nat) (p : Located) :
    List String :=
  let name :=
    if p.name.isEmpty then paint color .dim "(positional)" else paint color .green p.name
  let place := "span " ++ natText p.start ++ ".." ++ natText p.stop
  let first := "  " ++ paint color .gray ("[" ++ natText index ++ "]") ++ " "
    ++ paint color .bold name ++ " " ++ paint color .dim "│" ++ " " ++ paint color .yellow place
  let literals :=
    if p.leading.isEmpty && p.trailing.isEmpty then []
    else ["      " ++ paint color .dim "prefix:" ++ " "
      ++ paint color .cyan (Text.quoted p.leading) ++ "  " ++ paint color .dim "│ suffix:" ++ " "
      ++ paint color .cyan (Text.quoted p.trailing)]
  first :: literals ++ p.chain.map fun call => callLine color (knows call.name) call

/-- The lines about a template without placeholders. -/
def noPlaceholderLines (color : Bool) (template : String) : List String :=
  paint color .dim "  No placeholders found" ::
    if template.toList.contains '{' then
      ["", paint color .yellow "Possible reasons:",
        "  • The brace is escaped with a backslash",
        "  • The text between braces is not a name or filter chain"]
    else []

/-- The lines of the result. -/
def resultLines (color : Bool) : Except Error String → List String
  | .ok text => ["  " ++ paint color .bold (paint color .green ("\"" ++ text ++ "\""))]
  | .error error =>
    ("  " ++ paint color .red ("✗ " ++ error.message)) ::
      match error.filterName? with
      | some name => ["      " ++ paint color .dim "filter:" ++ " " ++ paint color .blue name]
      | none => []

/-! ## 3. The whole report -/

/-- The report on a template and its result; `knows` says which filters there are. -/
def text (color : Bool) (knows : String → Bool) (template : String)
    (result : Except Error String) : String :=
  let placeholders := Template.placeholders template.toList
  let about :=
    if placeholders.isEmpty then noPlaceholderLines color template
    else (placeholders.mapIdx (placeholderLines color knows)).flatten
  let title := paint color .bold (paint color .cyan ("⚙  Template: \"" ++ template ++ "\""))
  let lines := ["", title, "", paint color .gray "━━━ Placeholders ━━━"] ++ about
    ++ ["", paint color .gray "━━━ Result ━━━"] ++ resultLines color result ++ [""]
  String.join (lines.map (· ++ "\n"))

end Stencil.Cli.Report
