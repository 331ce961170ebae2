import Mathlib.Data.List.DropRight
import Mathlib.Tactic.Common

/-!
# Script directives

`parseUdfObjectPath` reads the `%udf_object` option of a script's source text, `parseDebugLevel` its
`%udf_debug_level` option.
-/

namespace ExaUdf

/-- `char::is_whitespace`: the Unicode White_Space property. -/
def isWhitespace (c : Char) : Bool :=
  let n := c.toNat
  (9 ≤ n && n ≤ 13) || (8192 ≤ n && n ≤ 8202) ||
    [32, 133, 160, 5760, 8232, 8233, 8239, 8287, 12288].contains n

/-- `str::trim`. -/
def trim (s : List Char) : List Char :=
  (s.dropWhile isWhitespace).rdropWhile isWhitespace

/-- `str::trim_end_matches`, for one character. -/
def trimEndMatches (c : Char) (s : List Char) : List Char :=
  s.rdropWhile (· == c)

/-- A line without the carriage return before its line feed. -/
def stripCarriageReturn (line : List Char) : List Char :=
  if line.getLast? = some '\r' then line.dropLast else line

/-- `str::lines`: what follows the last line feed is a line only if it is not empty. -/
def lines (s : List Char) : List (List Char) :=
  let segments := s.splitOn '\n'
  let last := segments.getLastD []
  segments.dropLast.map stripCarriageReturn ++ if last = [] then [] else [last]

/-- The rest of a line after a directive. -/
def stripPrefix (directive : String) (line : List Char) : Option (List Char) :=
  if directive.toList.isPrefixOf line then some (line.drop directive.length) else none

/-- The path of the first `%udf_object` option that has one. -/
def parseUdfObjectPath (source : String) : Option String :=
  (lines source.toList).findSome? fun line =>
    (stripPrefix "%udf_object" (trim line)).bind fun rest =>
      let path := trim (trimEndMatches ';' (trim rest))
      if path = [] then none else some (String.ofList path)

/-- The tracing levels that a script can ask for. -/
inductive Level where
  | debug
  | info
  | warn
  | error
  deriving DecidableEq, Repr

/-- The level of a name in any case; a name that is not known asks for nothing. -/
def levelOfToken (token : List Char) : Level :=
  match String.ofList (token.map Char.toLower) with
  | "debug" => .debug
  | "info" => .info
  | "warn" => .warn
  | "error" => .error
  | _ => .info

/-- The level of the first `%udf_debug_level` option. -/
def parseDebugLevel (source : String) : Level :=
  ((lines source.toList).findSome? fun line =>
    (stripPrefix "%udf_debug_level" (trim line)).map fun rest =>
      levelOfToken (trim (trimEndMatches ';' (trim rest)))).getD .info

end ExaUdf
