import SchemaLint.Digest.Reader

/-!
# Expressions of digests

Expressions are read for their form only; the tables of queries inside them are not wanted.
Words that begin a form of their own are names where that form does not follow.
-/

namespace SchemaLint
namespace Digest
namespace Expression

open SchemaLint.Parser Reader

/-- How tightly operators bind, from the loosest to the tightest. -/
def disjunction : Nat := 5
def conjunction : Nat := 10
def negation : Nat := 15
def extraction : Nat := 16
def test : Nat := 17
def likeness : Nat := 19
def comparison : Nat := 20
def bitOr : Nat := 21
def bitShift : Nat := 22
def bitAnd : Nat := 23
def exclusiveOr : Nat := 24
def addition : Nat := 30
def multiplication : Nat := 40
def zone : Nat := 41

/-- How tightly an operator binds. -/
def strengthOf? (symbols : String) : Option Nat :=
  match symbols with
  | "=" | "==" | "<" | "<=" | ">" | ">=" | "<>" | "!=" | "<=>" => some comparison
  | "|" => some bitOr
  | "^" | "<<" | ">>" => some bitShift
  | "&" => some bitAnd
  | "+" | "-" => some addition
  | "*" | "/" | "%" | "||" => some multiplication
  | "->" | "->>" => some extraction
  | _ => none

/-- Operators that compare with some or all rows of a query. -/
def comparesRows (symbols : String) : Bool :=
  ["=", "==", "<", "<=", ">", ">=", "<>", "!="].contains symbols

/-- What may follow an operand. -/
inductive Continuation where
  /-- An operator between two operands. -/
  | binary (strength : Nat) (rows : Bool)
  /-- A division, whose right operand is a whole expression. -/
  | division
  | test
  | timeZone
  | matching
  | likeness
  | membership
  | range

/-- The words that follow an operand, each with its strength. -/
def continuationWords : List (String × List String × Nat × Continuation) := [
  ("OR", [], disjunction, .binary disjunction false),
  ("AND", [], conjunction, .binary conjunction false),
  ("XOR", [], exclusiveOr, .binary exclusiveOr false),
  ("DIV", [], multiplication, .division),
  ("IS", [], Expression.test, .test),
  ("AT", ["TIME", "ZONE"], zone, .timeZone),
  ("NOT", ["IN"], comparison, .membership),
  ("NOT", ["BETWEEN"], comparison, .range),
  ("NOT", ["LIKE"], Expression.likeness, .likeness),
  ("NOT", ["ILIKE"], Expression.likeness, .likeness),
  ("NOT", ["SIMILAR", "TO"], Expression.likeness, .likeness),
  ("NOT", ["REGEXP"], Expression.likeness, .matching),
  ("NOT", ["RLIKE"], Expression.likeness, .matching),
  ("IN", [], comparison, .membership),
  ("BETWEEN", [], comparison, .range),
  ("LIKE", [], Expression.likeness, .likeness),
  ("ILIKE", [], Expression.likeness, .likeness),
  ("SIMILAR", ["TO"], Expression.likeness, .likeness),
  ("REGEXP", [], Expression.likeness, .matching),
  ("RLIKE", [], Expression.likeness, .matching)]

/-- What a token after an operand begins, if it binds more tightly than `strength`. -/
def continuation? (strength : Nat) (token : Token) (rest : List Token) :
    Option (Continuation × Nat) :=
  match token with
  | .operator symbols =>
      ((strengthOf? symbols).filter (strength < ·)).map fun tighter =>
        (.binary tighter (comparesRows symbols), 0)
  | token =>
      ((keywordHead continuationWords token rest).filter (strength < ·.1.1)).map fun found =>
        (found.1.2, found.2)

/-- What may follow the word of a test. -/
def testWords : List (List String) := [
  ["NOT", "NULL"], ["NULL"], ["NOT", "TRUE"], ["TRUE"], ["NOT", "FALSE"], ["FALSE"],
  ["NOT", "UNKNOWN"], ["UNKNOWN"]]

/-- Reads the first of several sequences of keywords that follows, and says whether one does. -/
def optionalSequence : List (List String) → Reader Bool
  | [] => return false
  | keywords :: others => do
      if ← optionalKeywords keywords then
        return true
      else
        optionalSequence others

/-- The rest of a test. -/
def testRest (nested : Nested) : Reader Unit := do
  unless ← optionalSequence testWords do
    expectKeywords ["NOT", "DISTINCT", "FROM"] |> either (fun _ => true)
      (expectKeywords ["DISTINCT", "FROM"])
    nested.anyExpression

/-- Expressions in parentheses, or a query. -/
def rowsOrQuery (nested : Nested) : Reader Unit :=
  parenthesized do
    if ← aheadAny ["SELECT", "WITH"] then
      let _ ← nested.query
    else
      list nested.anyExpression

/-- The right operand of an operator. -/
def rightOperand (nested : Nested) (strength : Nat) (rows : Bool) : Reader Unit := do
  if ← optionalOneOf ["ANY", "ALL", "SOME"] then
    unless rows do
      refuse
    rowsOrQuery nested
  else
    nested.expression strength

/-- The rest of what follows an operand. -/
def continueWith (nested : Nested) : Continuation → Reader Unit
  | .binary strength rows => rightOperand nested strength rows
  | .division => nested.anyExpression
  | .test => testRest nested
  | .timeZone => nested.expression zone
  | .matching => nested.expression Expression.likeness
  | .likeness => do
      let _ ← optionalKeyword "ANY"
      nested.expression Expression.likeness
      after "ESCAPE" value
  | .membership => rowsOrQuery nested
  | .range => do
      nested.expression comparison
      expectKeywords ["AND"]
      nested.expression comparison

/-- One of several expressions to sort by. -/
def sortKey (nested : Nested) : Reader Unit := do
  nested.anyExpression
  let _ ← optionalOneOf ["ASC", "DESC"]
  if ← optionalKeyword "NULLS" then
    expectOneOf ["FIRST", "LAST"]

/-- An order to sort by, if one follows. -/
def optionalOrder (nested : Nested) : Reader Unit := do
  if ← optionalKeywords ["ORDER", "BY"] then
    list (sortKey nested)

/-- The rest of a qualified name; a star may be its last part, and this says whether it is. -/
def qualifiedRest : Reader Bool := do
  let parts ← separated .period <| token fun t =>
    if t = .operator "*" then some true else (identifierOf? t).map fun _ => false
  if parts.dropLast.any (· == true) then
    refuse
  else
    return parts.getLast? == some true

/-- A star, alone or after a name, and nothing else. -/
def wildcard : Reader Unit := do
  if ← optionalToken (.operator "*") then
    return ()
  else
    unless ← qualifiedRest do
      refuse

/-- A star or an expression. -/
def wildcardOr (nested : Nested) : Reader Unit :=
  either (fun _ => true) wildcard nested.anyExpression

/-- The arguments of a call after the opening parenthesis. -/
def argumentsRest (nested : Nested) : Reader Unit := do
  unless ← optionalToken .rightParen do
    let _ ← optionalOneOf ["ALL", "DISTINCT"]
    list (wildcardOr nested)
    optionalOrder nested
    after "LIMIT" nested.anyExpression
    after "SEPARATOR" value
    expectToken .rightParen

/-- An end of a window frame. -/
def frameBound (nested : Nested) : Reader Unit := do
  unless ← optionalKeywords ["CURRENT", "ROW"] do
    unless ← optionalKeyword "UNBOUNDED" do
      nested.anyExpression
    expectOneOf ["PRECEDING", "FOLLOWING"]

/-- The frame of a window. -/
def frame (nested : Nested) : Reader Unit := do
  expectOneOf ["ROWS", "RANGE", "GROUPS"]
  if ← optionalKeyword "BETWEEN" then
    frameBound nested
    expectKeywords ["AND"]
    frameBound nested
  else
    frameBound nested

/-- The definition of a window after the opening parenthesis. -/
def windowRest (nested : Nested) : Reader Unit := do
  unless ← aheadAny ["PARTITION", "ORDER", "ROWS", "RANGE", "GROUPS"] do
    if (← peek).any fun t => (identifierOf? t).isSome then
      let _ ← next
  if ← optionalKeywords ["PARTITION", "BY"] then
    list nested.anyExpression
  optionalOrder nested
  unless ← optionalToken .rightParen do
    frame nested
    expectToken .rightParen

/-- A call of a function whose name has been read. -/
def call (nested : Nested) : Reader Unit := do
  expectToken .leftParen
  argumentsRest nested
  let _ ← optionalSequence [["RESPECT", "NULLS"], ["IGNORE", "NULLS"]]
  if ← optionalKeyword "OVER" then
    if ← optionalToken .leftParen then
      windowRest nested
    else
      let _ ← identifier

/-- The branches of a case distinction after the first `WHEN`. -/
def branches (nested : Nested) : Reader Unit := do
  let branch : Reader Unit := do
    nested.anyExpression
    expectKeywords ["THEN"]
    nested.anyExpression
  branch
  clauses (keywordHead [("WHEN", [], ())]) (fun _ _ => branch) ()

/-- A case distinction after its first word. -/
def caseRest (nested : Nested) : Reader Unit := do
  unless ← optionalKeyword "WHEN" do
    nested.anyExpression
    expectKeywords ["WHEN"]
  branches nested
  after "ELSE" nested.anyExpression
  expectKeywords ["END"]

/-- A type: a word with a length, and words about its sign or characters. -/
def dataType : Reader Unit := do
  let _ ← token fun t => match t with
    | .word w => some w
    | _ => none
  let _ ← optionalOneOf ["PRECISION", "VARYING", "INTEGER"]
  if ← optionalToken .leftParen then
    list value
    expectToken .rightParen
  let _ ← optionalOneOf ["UNSIGNED", "INTEGER"]
  if ← optionalKeywords ["CHARACTER", "SET"] then
    let _ ← identifier

/-- The units of time intervals. -/
def timeUnits : List String := [
  "YEAR", "YEARS", "MONTH", "MONTHS", "WEEK", "WEEKS", "DAY", "DAYS", "HOUR", "HOURS", "MINUTE",
  "MINUTES", "SECOND", "SECONDS", "CENTURY", "DECADE", "DOW", "DOY", "EPOCH", "ISODOW",
  "ISOYEAR", "JULIAN", "MICROSECOND", "MICROSECONDS", "MILLENIUM", "MILLENNIUM", "MILLISECOND",
  "MILLISECONDS", "NANOSECOND", "NANOSECONDS", "QUARTER", "TIMEZONE", "TIMEZONE_HOUR",
  "TIMEZONE_MINUTE"]

/-- The parts of a point in time that can be taken from it. -/
def timeParts : List String :=
  timeUnits ++ [
    "DATE", "DATETIME", "DAYOFWEEK", "DAYOFYEAR", "ISOWEEK", "TIME", "TIMEZONE_ABBR",
    "TIMEZONE_REGION"]

/-- The forms that begin with a word. -/
inductive Form where
  | constant
  | clock
  | cases
  | conversion
  | cast
  | existence
  | extraction
  | part
  | trim
  | position
  | interval
  | negation
  | search

/-- The words that begin a form. -/
def formWords : List (String × List String × Form) := [
  ("TRUE", [], .constant),
  ("FALSE", [], .constant),
  ("NULL", [], .constant),
  ("CURRENT_TIMESTAMP", [], .clock),
  ("CURRENT_TIME", [], .clock),
  ("CURRENT_DATE", [], .clock),
  ("LOCALTIME", [], .clock),
  ("LOCALTIMESTAMP", [], .clock),
  ("CASE", [], .cases),
  ("CONVERT", [], .conversion),
  ("CAST", [], .cast),
  ("TRY_CAST", [], .cast),
  ("SAFE_CAST", [], .cast),
  ("EXISTS", [], .existence),
  ("EXTRACT", [], .extraction),
  ("SUBSTRING", [], .part),
  ("TRIM", [], .trim),
  ("POSITION", [], .position),
  ("INTERVAL", [], .interval),
  ("NOT", [], .negation),
  ("MATCH", [], .search)]

/-- The rest of a form after its word. -/
def formRest (nested : Nested) : Form → Reader Unit
  | .constant => return ()
  | .clock => do
      if ← optionalToken .leftParen then
        argumentsRest nested
  | .cases => caseRest nested
  | .conversion => parenthesized do
      nested.anyExpression
      if ← optionalKeyword "USING" then
        let _ ← objectName
      else
        expectToken .comma
        dataType
  | .cast => parenthesized do
      nested.anyExpression
      expectKeywords ["AS"]
      dataType
  | .existence => parenthesized do
      let _ ← nested.query
  | .extraction => parenthesized do
      expectOneOf timeParts
      expectKeywords ["FROM"]
      nested.anyExpression
  | .part => parenthesized do
      nested.anyExpression
      if (← optionalKeyword "FROM") || (← optionalToken .comma) then
        nested.anyExpression
      if (← optionalKeyword "FOR") || (← optionalToken .comma) then
        nested.anyExpression
  | .trim => parenthesized do
      let _ ← optionalOneOf ["BOTH", "LEADING", "TRAILING"]
      nested.anyExpression
      after "FROM" nested.anyExpression
  | .position => parenthesized do
      nested.expression comparison
      expectKeywords ["IN"]
      nested.anyExpression
  | .interval => do
      nested.anyExpression
      expectOneOf timeUnits
  | .negation => nested.expression negation
  | .search => do
      columnNames
      expectKeywords ["AGAINST"]
      parenthesized do
        value
        let _ ← optionalSequence [
          ["IN", "NATURAL", "LANGUAGE", "MODE", "WITH", "QUERY", "EXPANSION"],
          ["IN", "NATURAL", "LANGUAGE", "MODE"],
          ["IN", "BOOLEAN", "MODE"],
          ["WITH", "QUERY", "EXPANSION"]]

/-- A name, or the call of a function, or a text with its character set in front. -/
def nameForm (nested : Nested) : Reader Unit := do
  let name ← identifier
  match ← peek with
  | some .leftParen => call nested
  | some .period =>
      let _ ← next
      if ← qualifiedRest then
        refuse
      if (← peek) = some .leftParen then
        call nested
  | some (.text _ _) | some .literal =>
      if name.quote.isNone && name.value.toList.head? == some '_' then
        let _ ← next
  | _ => return ()

/-- The types whose name may stand in front of a text. -/
def literalTypes : List String := [
  "DATE", "TIME", "DATETIME", "TIMESTAMP", "INT", "INTEGER", "TINYINT", "SMALLINT", "MEDIUMINT",
  "BIGINT", "FLOAT", "REAL", "DOUBLE", "DECIMAL", "DEC", "NUMERIC", "CHAR", "VARCHAR", "TEXT",
  "STRING", "BLOB", "BINARY", "VARBINARY", "BOOLEAN", "BOOL", "JSON", "UUID"]

/-- A text with its type in front; a quoted name may stand for the text. -/
def typedText : Reader Unit := do
  expectOneOf literalTypes
  let _ ← token fun t => match t with
    | .text _ value | .quoted value => some value
    | _ => none

/-- An operand that begins with a word. -/
def wordOperand (nested : Nested) : Reader Unit := do
  let form : Reader Unit := do
    match (← remaining) with
    | [] => refuse
    | t :: rest =>
        match keywordHead formWords t rest with
        | none => refuse
        | some (form, _) =>
            let _ ← next
            formRest nested form
  let nameOnly : Reader Unit := do
    if ← aheadAny ["EXISTS", "INTERVAL", "STRUCT"] then
      refuse
    nameForm nested
  either (fun _ => true) typedText (either (fun _ => true) form nameOnly)

/-- A part of a value in parentheses. -/
def optionalPart : Reader Unit := do
  if ← optionalToken .period then
    let _ ← token fun t => match t with
      | .word w => some w
      | .quoted name => some name
      | _ => none

/-- An operand. -/
def operand (nested : Nested) : Reader Unit := do
  match ← peek with
  | some (.word _) | some (.quoted _) => wordOperand nested
  | some .leftParen =>
      rowsOrQuery nested
      optionalPart
  | some (.operator "-") | some (.operator "+") =>
      let _ ← next
      nested.expression multiplication
  | some (.operator ":") =>
      let _ ← next
      let _ ← identifier
  | _ => value
  if ← optionalKeyword "COLLATE" then
    let _ ← objectName

/-- An expression whose operators bind more tightly than `strength`, with more nesting inside. -/
def within (nested : Nested) (strength : Nat) : Reader Unit := do
  operand nested
  clauses (continuation? strength) (fun found _ => continueWith nested found) ()

end Expression
end Digest
end SchemaLint
