import InveniOps.Domain.Dates
import InveniOps.Lib.ListFacts
import InveniOps.Metrics.Exposition

/-!
# Reading the metrics page

`parsePrometheusText` of `loadtest/orchestrator/metrics.js`: every line of the page is one
sample, or it is passed over.
-/

namespace InveniOps.Metrics

open Lib Regex Domain

variable {F : NumberFormat}

/-- The labels are an object: its keys in the order they were set. -/
structure Sample (F : NumberFormat) where
  name : Text
  labels : List (Text × Text)
  value : JsNumber F

/-- `[a-zA-Z]` -/
def isLetter (c : Char) : Bool := ('a' ≤ c && c ≤ 'z') || ('A' ≤ c && c ≤ 'Z')

/-- What a metric's name may begin with. -/
def isNameStart (c : Char) : Bool := isLetter c || c == '_' || c == ':'

/-- What a metric's name may go on with. -/
def isNameChar (c : Char) : Bool := isNameStart c || c.isDigit

/-- What a label's name may begin with. -/
def isLabelStart (c : Char) : Bool := isLetter c || c == '_'

/-- What a label's name may go on with. -/
def isLabelChar (c : Char) : Bool := isLabelStart c || c.isDigit

/-- `.` matches no line terminator. -/
def isDot (c : Char) : Bool :=
  c.toNat != 0xA && c.toNat != 0xD && c.toNat != 0x2028 && c.toNat != 0x2029

/-- The pattern of a metric's name. -/
def nameRegex : Regex := seq (chars isNameStart) (star (chars isNameChar))

/-- The white space, the value and the end of a line. -/
def valueRegex : Regex :=
  seq (plus (chars isJsSpace)) (seq (group 4 (plus (chars fun c => !isJsSpace c)))
    (seq (star (chars isJsSpace)) endOfInput))

/-- The optional labels: group 2 with the braces, group 3 without them. -/
def labelsRegex : Regex :=
  opt (group 2 (seq (lit '{') (seq (group 3 (star (chars (· != '}')))) (lit '}'))))

/-- `/^([a-zA-Z_:][a-zA-Z0-9_:]*)(\{([^}]*)\})?\s+([^\s]+)\s*$/` -/
def lineRegex : Regex := seq (group 1 nameRegex) (seq labelsRegex valueRegex)

/-- `(?:[^"\\]|\\.)*` -/
def quotedRegex : Regex :=
  star (alt (chars fun c => c != '"' && c != '\\') (seq (lit '\\') (chars isDot)))

/-- `/([a-zA-Z_][a-zA-Z0-9_]*)="((?:[^"\\]|\\.)*)"/g` -/
def pairRegex : Regex :=
  seq (group 1 (seq (chars isLabelStart) (star (chars isLabelChar))))
    (seq (lit '=') (seq (lit '"') (seq (group 2 quotedRegex) (lit '"'))))

/-- Undoes the escapes of backslashes and quotes, quotes first. -/
def unescapeLabelValue (value : Text) : Text :=
  replaceAll ['\\', '\\'] ['\\'] (replaceAll ['\\', '"'] ['"'] value)

/-- Setting a key of an object.  Its prototype cannot be set to a string. -/
def setLabel (labels : List (Text × Text)) (key value : Text) : List (Text × Text) :=
  if key = "__proto__".toList then labels
  else if labels.any (·.1 = key) then
    labels.map fun label => if label.1 = key then (key, value) else label
  else labels ++ [(key, value)]

/-- The labels of a line; a name met again takes the later value. -/
def parseLabels (labelStr : Text) : List (Text × Text) :=
  (pairRegex.allMatches labelStr).foldl (fun labels pairMatch =>
    setLabel labels ((pairMatch 1).getD []) (unescapeLabelValue ((pairMatch 2).getD []))) []

/-- The value of a line, with the infinities of the format. -/
def parseValue (F : NumberFormat) (valueStr : Text) : JsNumber F :=
  if valueStr = "+Inf".toList then .infinite false
  else if valueStr = "-Inf".toList then .infinite true
  else readNumber F valueStr

/-- The sample of what the groups of a line have captured. -/
def sampleOf (F : NumberFormat) (captures : Captures) : Option (Sample F) :=
  let labels :=
    match captures 3 with
    | none | some [] => []
    | some labelStr => parseLabels labelStr
  match parseValue F ((captures 4).getD []) with
  | .nan => none
  | value => some ⟨(captures 1).getD [], labels, value⟩

/-- A line's sample; empty lines and comments have none. -/
def parseLine (F : NumberFormat) (line : Text) : Option (Sample F) :=
  if line = [] ∨ line.head? = some '#' then none
  else (lineRegex.matchAt line).bind fun m => sampleOf F m.captures

/-- The samples of a page, in order. -/
def parsePrometheusText (F : NumberFormat) (text : Text) : List (Sample F) :=
  (text.splitOn '\n').filterMap (parseLine F)

/-! ### Pages -/

lemma parse_nil : parsePrometheusText F [] = [] := rfl

/-- A page is read line by line. -/
lemma parse_append (a b : Text) : parsePrometheusText F (a ++ '\n' :: b)
    = parsePrometheusText F a ++ parsePrometheusText F b := by
  rw [parsePrometheusText, List.splitOn_append_cons_self, List.filterMap_append]
  rfl

lemma parse_lines (lines : List Text) : parsePrometheusText F (['\n'].intercalate lines)
    = lines.flatMap (parsePrometheusText F) := by
  induction lines with
  | nil => rfl
  | cons line lines ih =>
    cases lines with
    | nil => simp
    | cons next lines =>
      rw [List.intercalate_cons_cons, List.append_assoc, List.singleton_append, parse_append, ih]
      rfl

lemma parse_blocks (blocks : List Text) : parsePrometheusText F (['\n', '\n'].intercalate blocks)
    = blocks.flatMap (parsePrometheusText F) := by
  induction blocks with
  | nil => rfl
  | cons block blocks ih =>
    cases blocks with
    | nil => simp
    | cons next blocks =>
      have hblank : block ++ ['\n', '\n'] ++ ['\n', '\n'].intercalate (next :: blocks)
          = block ++ '\n' :: ([] ++ '\n' :: ['\n', '\n'].intercalate (next :: blocks)) := by
        simp
      rw [List.intercalate_cons_cons, hblank, parse_append, parse_append, parse_nil, ih,
        List.nil_append]
      rfl

lemma parse_line {line : Text} (h : '\n' ∉ line) :
    parsePrometheusText F line = (parseLine F line).toList := by
  rw [parsePrometheusText, List.splitOn_eq_singleton h]
  cases hline : parseLine F line <;> simp [hline]

lemma parse_comment {line : Text} (h : '\n' ∉ line) :
    parsePrometheusText F ('#' :: line) = [] := by
  have hline : '\n' ∉ '#' :: line := by simp [h]
  rw [parse_line hline]
  rfl

end InveniOps.Metrics
