import SchemaLint.Proofs.Parser
import SchemaLint.Proofs.Sql.Script
import SchemaLint.Sql.Grammar

/-!
# Names and texts in quotes

A name between backticks or a text between quotes is read as it was written, whatever is in it,
if the marks inside are doubled.  So a script of statements that differ in their names only is
read as these statements (`QuotedStatement.parseScript_script`).
-/

namespace SchemaLint
namespace Sql

open Lexeme Script
open Text (Stops isWhite)

/-- A name between backticks; those inside are doubled. -/
def quotedName (name : String) : String :=
  "\x60" ++ Text.double '\x60' name ++ "\x60"

/-- A text between quotes; quotes and backslashes inside are doubled. -/
def quotedText (text : String) : String :=
  "'" ++ Text.substitute (fun c => if c = '\'' ∨ c = '\\' then [c, c] else [c]) text ++ "'"

theorem toList_quotedName (name : String) : (quotedName name).toList =
    '\x60' :: (name.toList.flatMap (fun c => if c = '\x60' then ['\x60', '\x60'] else [c]) ++
      ['\x60']) := by
  simp [quotedName, Text.double, Text.substitute]

theorem toList_quotedText (text : String) : (quotedText text).toList =
    '\'' :: (text.toList.flatMap (fun c => if c = '\'' ∨ c = '\\' then [c, c] else [c]) ++
      ['\'']) := by
  simp [quotedText, Text.substitute]

/-- With its quotes doubled a text is read back, unless a backslash in it escapes something. -/
theorem body_double {quote : Char} {value : List Char} (h : '\\' ∈ value → quote = '\x60') :
    Body quote (value.flatMap fun c => if c = quote then [quote, quote] else [c]) value := by
  induction value with
  | nil => exact .nil
  | cons c value ih =>
      have hvalue := ih fun hmem => h (List.mem_cons_of_mem _ hmem)
      rw [List.flatMap_cons]
      split
      · next hc => exact hc ▸ hvalue.doubled
      · next hc => exact hvalue.plain hc fun hescape => h (hescape ▸ List.mem_cons_self)

theorem body_substitute (text : List Char) :
    Body '\'' (text.flatMap fun c => if c = '\'' ∨ c = '\\' then [c, c] else [c]) text := by
  induction text with
  | nil => exact .nil
  | cons c text ih =>
      rw [List.flatMap_cons]
      split
      · next hc =>
          rcases hc with rfl | rfl
          · exact ih.doubled
          · exact ih.escaped '\\' (by decide)
      · next hc =>
          rw [not_or] at hc
          exact ih.plain hc.1 fun h => absurd h hc.2

/-- Whether a text is a word without quotes. -/
def isWord (word : String) : Bool :=
  match word.toList with
  | [] => false
  | c :: cs => startsWord c && cs.all continuesWord

theorem exists_of_isWord {word : String} (h : isWord word = true) :
    ∃ c cs, word.toList = c :: cs ∧ startsWord c = true ∧ ∀ d ∈ cs, continuesWord d = true := by
  rw [isWord] at h
  cases hlist : word.toList with
  | nil => simp [hlist] at h
  | cons c cs =>
      simp only [hlist, Bool.and_eq_true, List.all_eq_true] at h
      exact ⟨c, cs, rfl, h.1, h.2⟩

/-- The characters that end a word or a number where they stand after it. -/
def separators : List Char :=
  [' ', ',', '(', ')']

/-- The text goes on with a space, a comma or a parenthesis, or not at all. -/
def Parted (rest : List Char) : Prop :=
  Stops (fun c => !separators.contains c) rest

theorem Parted.stops {rest : List Char} (h : Parted rest) {p : Char → Bool}
    (hp : separators.all (!p ·) = true) : Stops p rest := by
  intro c hc
  have hmem : c ∈ separators := by simpa using h c hc
  simpa using List.all_eq_true.1 hp c hmem

/-- Digits are read up to where the text is parted. -/
theorem numberTail_digits {rest : List Char} (hrest : Parted rest) : ∀ {digits : List Char},
    (∀ d ∈ digits, d.isDigit = true) → ∀ previous : Char,
      numberTail previous (digits ++ rest) = (digits, rest)
  | [], _, previous => numberTail_eq_nil.2 (hrest.stops rfl)
  | d :: digits, h, previous => by
      obtain ⟨hd, hdigits⟩ := List.forall_mem_cons.1 h
      rw [List.cons_append, numberTail_cons]
      exact ⟨by simp [continuesNumber, hd], numberTail_digits hrest hdigits d⟩

/-- A part of a statement, read as tokens before the rest of a text, by the scanner and by the
splitter, which takes all of it into the chunk. -/
structure Reads (part : List Char) (tokens : List Token) (rest : List Char) : Prop where
  scans : ∀ {more : List Token}, Scans rest more → Scans (part ++ rest) (tokens ++ more)
  passes : ∀ {cursor : Cursor}, cursor.delimiter = [';'] →
    command? cursor (part ++ rest) = none → Passes cursor (part ++ rest) (cursor.takeAll part) rest

namespace Reads

variable {first second spelling rest : List Char} {firstTokens secondTokens : List Token} {c : Char}

protected theorem nil (rest : List Char) : Reads [] [] rest where
  scans := fun hmore => hmore
  passes := fun _ _ => .refl _ _

theorem append (hfirst : Reads first firstTokens (second ++ rest))
    (hsecond : Reads second secondTokens rest) :
    Reads (first ++ second) (firstTokens ++ secondTokens) rest where
  scans := by
    intro more hmore
    rw [List.append_assoc, List.append_assoc]
    exact hfirst.scans (hsecond.scans hmore)
  passes := by
    intro cursor hdelimiter hcommand
    rw [List.append_assoc] at hcommand ⊢
    rw [Cursor.takeAll_append]
    refine (hfirst.passes hdelimiter hcommand).trans
      (hsecond.passes ((cursor.takeAll_delimiter _).trans hdelimiter) ?_)
    cases first with
    | nil => exact hcommand
    | cons c first => exact command?_of_inLine (cursor.takeAll_lineStart c first) _

/-- A token that cannot be taken for a comment, a number or a semicolon. -/
theorem token {token : Token} (h : Spelled (c :: spelling) token rest) (hwhite : isWhite c = false)
    (hdigit : c.isDigit = false) (hc : c ≠ '#' ∧ c ≠ '-' ∧ c ≠ '/') (htoken : token ≠ .semicolon) :
    Reads (c :: spelling) [token] rest := by
  obtain ⟨hline, hblock⟩ := begins_eq_false hc (spelling ++ rest)
  exact {
    scans := fun hmore => .read (.token hwhite hline hblock h) hmore
    passes := fun hdelimiter hcommand => passes_spelled h htoken hwhite hline hblock
      (fun htrue => by simp [hdigit] at htrue) hdelimiter hcommand }

theorem space (rest : List Char) : Reads [' '] [] rest where
  scans := fun hmore => .pass (.white rfl rest) hmore
  passes := fun hdelimiter hcommand =>
    passes_plain hdelimiter hcommand (isPlain_of_not_mem (by decide) rest)

/-- A word before a space, a comma or a parenthesis. -/
theorem word (word : String) (hword : isWord word = true) (hrest : Parted rest) :
    Reads word.toList [.word word] rest := by
  obtain ⟨c, spelling, hlist, hc, hspelling⟩ := exists_of_isWord hword
  have hmark : Scanned.marksBits c = true → (spelling ++ rest).head? ≠ some '\'' := by
    intro _ hhead
    cases spelling with
    | nil => exact absurd (hrest _ hhead) (by decide)
    | cons d spelling =>
        cases hhead
        exact absurd (hspelling _ List.mem_cons_self) (by decide)
  have hne : ∀ {d : Char}, startsWord d = false → c ≠ d := by
    rintro d hd rfl
    rw [hc] at hd
    cases hd
  have htoken := token (.word hc hmark hspelling (hrest.stops (by decide)))
    (isWhite_eq_false_of_continuesWord (continuesWord_of_startsWord hc))
    (Scanned.isDigit_eq_false_of_startsWord hc) ⟨hne (by decide), hne (by decide), hne (by decide)⟩
    nofun
  rwa [← hlist, String.ofList_toList] at htoken

/-- A keyword and the space after it. -/
theorem keyword (word : String) (hword : isWord word = true) (rest : List Char) :
    Reads (word ++ " ").toList [.word word] rest := by
  rw [String.toList_append]
  exact (Reads.word word hword (Text.stops_cons rfl)).append (space rest)

/-- A numeral before a space, a comma or a parenthesis. -/
theorem numeral (n : Nat) (hrest : Parted rest) :
    Reads (Decimal.text n).toList [.number (Decimal.text n)] rest := by
  obtain ⟨c, tail, hdigits⟩ := List.exists_cons_of_ne_nil (Decimal.digits_ne_nil n)
  have hall : ∀ d ∈ c :: tail, d.isDigit = true := by
    rw [← hdigits]
    exact Decimal.isDigit_of_mem_digits n
  obtain ⟨hc, htail⟩ := List.forall_mem_cons.1 hall
  have hscan : numberTail c (tail ++ rest) = (tail, rest) := numberTail_digits hrest htail c
  have hhead : ∀ d, (tail ++ rest).head? = some d → d ≠ 'x' ∧ d ≠ 'X' := by
    intro d hd
    cases tail with
    | nil =>
        have hparted := hrest d hd
        constructor <;> rintro rfl <;> exact absurd hparted (by decide)
    | cons e tail =>
        cases hd
        have hdigit := htail _ List.mem_cons_self
        constructor <;> rintro rfl <;> exact absurd hdigit (by decide)
  have hspelled : Spelled (c :: tail) (.number (String.ofList (c :: tail))) rest :=
    .number hc (fun _ => ⟨fun h => (hhead _ h).1 rfl, fun h => (hhead _ h).2 rfl⟩) hscan
  have hne : ∀ {d : Char}, d.isDigit = false → c ≠ d := by
    rintro d hd rfl
    rw [hc] at hd
    cases hd
  have hwhite : isWhite c = false := Text.isWhite_eq_false_of_isDigit hc
  obtain ⟨hline, hblock⟩ := begins_eq_false ⟨hne rfl, hne rfl, hne rfl⟩ (tail ++ rest)
  have hlast : (numberTail c (tail ++ rest)).1.getLast? ≠ some '-' := by
    intro hminus
    rw [hscan] at hminus
    exact absurd (htail _ (List.mem_of_getLast? hminus)) (by decide)
  have htoken : Token.number (String.ofList (c :: tail)) ≠ .semicolon := by simp
  rw [Decimal.text, String.toList_ofList, hdigits]
  exact {
    scans := fun hmore => .read (.token hwhite hline hblock hspelled) hmore
    passes := fun hdelimiter hcommand => passes_spelled hspelled htoken hwhite hline hblock
      (fun _ hminus => absurd hminus hlast) hdelimiter hcommand }

/-- A mark that is a token by itself. -/
theorem mark (c : Char) (hc : c ∈ ['@', '.', ',', '(', ')']) (rest : List Char) :
    Reads [c] [Scanned.punctuation c] rest := by
  simp only [List.mem_cons, List.not_mem_nil, or_false] at hc
  rcases hc with rfl | rfl | rfl | rfl | rfl
  all_goals
    exact token (.punctuation rest (by decide) rfl (by decide)) rfl rfl (by decide) nofun

theorem quotedName (name : String) (hrest : Stops (· == '\x60') rest) :
    Reads (quotedName name).toList [.quoted name] rest := by
  have hbody := @body_double '\x60' name.toList fun _ => rfl
  have hname := token (.quoted hbody hrest) rfl rfl (by decide) nofun
  rwa [String.ofList_toList, ← toList_quotedName] at hname

theorem quotedText (text : String) (hrest : Stops (· == '\'') rest) :
    Reads (quotedText text).toList [.text text] rest := by
  have htext := token (.text (.inl rfl) (body_substitute text.toList) hrest) rfl rfl (by decide)
    nofun
  rwa [String.ofList_toList, ← toList_quotedText] at htext

end Reads

/-- A text of one statement.  It is read as tokens, unless a quote follows; it begins with a keyword
other than the command that sets the delimiter, and it does not end with white space. -/
structure IsStatementText (text : String) (tokens : List Token) : Prop where
  reads : ∀ {rest : List Char}, Stops isQuote rest → Reads text.toList tokens rest
  begins : ∃ word rest, text.toList = word.toList ++ ' ' :: rest ∧ isWord word = true ∧
    Text.sameLetters word "DELIMITER" = false
  ends : text.toList.rdropWhile isWhite = text.toList

namespace IsStatementText

variable {text : String} {tokens : List Token}

/-- A chunk with the text is read as what the tokens say. -/
theorem parse_chunk (h : IsStatementText text tokens) (htokens : tokens ≠ []) {result : Statement}
    {rest : List Token}
    (hrun : (Grammar.statement (Text.trim text)).run tokens = .ok (result, rest)) (line : Nat) :
    Chunk.parse ⟨text, line⟩ = .ok (some ⟨line, text, result⟩) := by
  have hscan : tokenize line text = .ok tokens := by
    have hscans := (h.reads Text.stops_nil).scans .nil
    rw [List.append_nil, List.append_nil] at hscans
    exact scan_eq_ok_iff.2 hscans
  have hparse : parseStatement line text = .ok (some result) := by
    obtain ⟨token, others, rfl⟩ := List.exists_cons_of_ne_nil htokens
    rw [parseStatement, hscan]
    simp only [bind, Except.bind, hrun]
    rfl
  rw [Chunk.parse, hparse]
  rfl

theorem command?_eq_none (h : IsStatementText text tokens) (cursor : Cursor) (rest : List Char) :
    command? cursor (text.toList ++ rest) = none := by
  obtain ⟨word, more, htext, hword, hother⟩ := h.begins
  obtain ⟨first, others, hlist, hfirst, hothers⟩ := exists_of_isWord hword
  have hspelling : ∀ c ∈ word.toList, continuesWord c = true := by
    rw [hlist]
    exact List.forall_mem_cons.2 ⟨continuesWord_of_startsWord hfirst, hothers⟩
  have hline : (text.toList ++ rest).takeWhile (· != '\n') =
      word.toList ++ ' ' :: (more ++ rest).takeWhile (· != '\n') := by
    rw [htext, List.append_assoc, List.takeWhile_append_of_pos]
    · rfl
    · intro c hc
      rw [bne_iff_ne]
      rintro rfl
      exact absurd (hspelling _ hc) (by decide)
  have hruns := @Text.runsOutside_append isWhite ' ' rfl ((more ++ rest).takeWhile (· != '\n'))
    word.toList (by simp [hlist]) fun c hc => isWhite_eq_false_of_continuesWord (hspelling c hc)
  unfold command?
  split
  · rw [delimiterCommand?, hline, hruns]
    cases Text.runsOutside isWhite ((more ++ rest).takeWhile (· != '\n')) with
    | nil => rfl
    | cons delimiter runs => simp [hother]
  · rfl

/-- The splitter finishes one chunk for the statement, and its text is that of the statement. -/
theorem chunksFrom_text (h : IsStatementText text tokens) {cursor : Cursor} (rest : List Char)
    (hdelimiter : cursor.delimiter = [';']) (hpending : cursor.pending = none) :
    ∃ (line : Nat) (next : Cursor), next.delimiter = [';'] ∧ next.pending = none ∧
      next.lineStart = false ∧ chunksFrom cursor (text.toList ++ ';' :: rest) =
        ⟨text, line⟩ :: chunksFrom next rest := by
  have hpasses := (h.reads (Text.stops_cons rfl)).passes hdelimiter
    (h.command?_eq_none cursor (';' :: rest))
  obtain ⟨word, more, htext, hword, -⟩ := h.begins
  obtain ⟨c, cs, hlist, hc, -⟩ := exists_of_isWord hword
  rw [hlist, List.cons_append] at htext
  -- the chunk holds the text, which neither begins nor ends with white space
  obtain ⟨hsome, hheld⟩ := cursor.held_takeAll_cons c
    (isWhite_eq_false_of_continuesWord (continuesWord_of_startsWord hc)) (cs ++ ' ' :: more)
  rw [← htext, cursor.held_of_none hpending, List.nil_append] at hheld
  rw [← htext] at hsome
  obtain ⟨line, hfinished⟩ := Cursor.exists_finished _ hsome
  have htaken : (cursor.takeAll text.toList).delimiter = [';'] :=
    (cursor.takeAll_delimiter _).trans hdelimiter
  refine ⟨line, { (cursor.takeAll text.toList).inLine with pending := none },
    htaken, rfl, rfl, ?_⟩
  have hinLine : (cursor.takeAll text.toList).lineStart = false := by
    rw [htext]
    exact cursor.takeAll_lineStart _ _
  rw [hpasses.chunksFrom_eq, chunksFrom_delimiter htaken (command?_of_inLine hinLine _), hfinished,
    hheld, h.ends, String.ofList_toList]
  rfl

/-- A script of the statement alone is read as what the tokens say. -/
theorem parseScript_eq (h : IsStatementText text tokens) (htokens : tokens ≠ [])
    {result : Statement} {rest : List Token}
    (hrun : (Grammar.statement (Text.trim text)).run tokens = .ok (result, rest)) :
    (parseScript (text ++ ";")).map (·.map ScriptStatement.statement) = .ok [result] := by
  obtain ⟨line, next, _, hnone, _, hchunks⟩ := @chunksFrom_text _ _ h {} [] rfl rfl
  have hscript : Script.chunks (text ++ ";") = [⟨text, line⟩] := by
    have hempty : chunksFrom next [] = [] := by
      rw [chunksFrom.eq_def]
      exact next.finished_of_none hnone
    rw [chunks, String.toList_append]
    exact hchunks.trans (by rw [hempty])
  rw [parseScript, hscript, List.mapM_cons, h.parse_chunk htokens hrun]
  rfl

end IsStatementText

namespace Grammar

open SchemaLint.Parser

theorem run_create_schema (text : String) (rest : List Token) :
    (create text).run (.word "DATABASE" :: rest) = createSchema.run rest := by
  have hor : (optionalKeywords ["OR", "REPLACE"] : Reader Bool).run (.word "DATABASE" :: rest) =
      .ok (false, .word "DATABASE" :: rest) := rfl
  rw [create, run_bind hor, run_bind (run_clauses_of_none rfl _ _)]
  rfl

/-- An account with its password, and nothing after it. -/
theorem run_create_user (text user host password : String) :
    (create text).run [.word "USER", .text user, .at, .text host, .word "IDENTIFIED", .word "BY",
        .text password] =
      .ok (.createUser { users := [{ user, host, password := some password }] }, []) := by
  have hor : ∀ rest, (optionalKeywords ["OR", "REPLACE"] : Reader Bool).run (.word "USER" :: rest) =
      .ok (false, .word "USER" :: rest) := fun _ => rfl
  have hspec : userSpec.run [.text user, .at, .text host, .word "IDENTIFIED", .word "BY",
      .text password] = .ok ({ user, host, password := some password }, []) := rfl
  rw [create, run_bind (hor _), run_bind (run_clauses_of_none rfl _ _)]
  change (createUser false).run _ = _
  rw [createUser, List.tail_cons, run_bind (run_separated_singleton hspec .comma),
    run_bind (run_clauses_nil _ _ _)]
  rfl

end Grammar

/-- A statement that names something in quotes. -/
inductive QuotedStatement where
  | createDatabase (name : String)
  | use (name : String)
  | dropDatabase (name : String)
  | createUser (user host password : String)

namespace QuotedStatement

/-- The text of a statement. -/
def text : QuotedStatement → String
  | createDatabase name => "CREATE DATABASE " ++ quotedName name
  | use name => "USE " ++ quotedName name
  | dropDatabase name => "DROP DATABASE " ++ quotedName name
  | createUser user host password => "CREATE USER " ++ quotedText user ++ "@" ++ quotedText host ++
      " IDENTIFIED BY " ++ quotedText password

theorem text_createDatabase (name : String) :
    (createDatabase name).text = "CREATE DATABASE " ++ quotedName name := rfl

theorem text_use (name : String) : (use name).text = "USE " ++ quotedName name := rfl

theorem text_dropDatabase (name : String) :
    (dropDatabase name).text = "DROP DATABASE " ++ quotedName name := rfl

theorem text_createUser (user host password : String) : (createUser user host password).text =
    "CREATE USER " ++ quotedText user ++ "@" ++ quotedText host ++ " IDENTIFIED BY " ++
      quotedText password := rfl

/-- What a statement says. -/
def statement : QuotedStatement → Statement
  | createDatabase name => .createDatabase name false
  | use name => .use name
  | dropDatabase name => .dropDatabase name false
  | createUser user host password =>
      .createUser { users := [{ user, host, password := some password }] }

/-- The tokens of a statement. -/
def tokens : QuotedStatement → List Token
  | createDatabase name => [.word "CREATE", .word "DATABASE", .quoted name]
  | use name => [.word "USE", .quoted name]
  | dropDatabase name => [.word "DROP", .word "DATABASE", .quoted name]
  | createUser user host password => [.word "CREATE", .word "USER", .text user, .at, .text host,
      .word "IDENTIFIED", .word "BY", .text password]

/-- A script of statements, each on a new line and with a semicolon at its end. -/
def script (statements : List QuotedStatement) : String :=
  Text.join "\n" (statements.map fun statement => statement.text ++ ";")

/-- The text is read as the tokens, if no quote follows. -/
theorem reads (statement : QuotedStatement) {rest : List Char} (hrest : Stops isQuote rest) :
    Reads statement.text.toList statement.tokens rest := by
  have hstops : ∀ mark, isQuote mark = true → Stops (· == mark) rest := by
    intro mark hmark c hc
    rw [beq_eq_false_iff_ne]
    rintro rfl
    rw [hrest c hc] at hmark
    cases hmark
  cases statement with
  | createDatabase name =>
      have htext : (createDatabase name).text.toList = ("CREATE" ++ " ").toList ++
          (("DATABASE" ++ " ").toList ++ (quotedName name).toList) := by simp [text_createDatabase]
      have hreads := (Reads.keyword "CREATE" (by decide) _).append
        ((Reads.keyword "DATABASE" (by decide) _).append
          (Reads.quotedName name (hstops '\x60' rfl)))
      rw [htext]
      exact hreads
  | use name =>
      have htext : (use name).text.toList = ("USE" ++ " ").toList ++ (quotedName name).toList := by
        simp [text_use]
      have hreads := (Reads.keyword "USE" (by decide) _).append
        (Reads.quotedName name (hstops '\x60' rfl))
      rw [htext]
      exact hreads
  | dropDatabase name =>
      have htext : (dropDatabase name).text.toList = ("DROP" ++ " ").toList ++
          (("DATABASE" ++ " ").toList ++ (quotedName name).toList) := by simp [text_dropDatabase]
      have hreads := (Reads.keyword "DROP" (by decide) _).append
        ((Reads.keyword "DATABASE" (by decide) _).append
          (Reads.quotedName name (hstops '\x60' rfl)))
      rw [htext]
      exact hreads
  | createUser user host password =>
      have htext : (createUser user host password).text.toList =
          ("CREATE" ++ " ").toList ++ (("USER" ++ " ").toList ++ ((quotedText user).toList ++
            (['@'] ++ ((quotedText host).toList ++ ([' '] ++ (("IDENTIFIED" ++ " ").toList ++
              (("BY" ++ " ").toList ++ (quotedText password).toList))))))) := by
        simp only [text_createUser, String.toList_append, List.append_assoc]
        rfl
      -- neither the sign nor the space after a text goes on with it
      have hpassword := (Reads.keyword "IDENTIFIED" (by decide) _).append
        ((Reads.keyword "BY" (by decide) _).append
          (Reads.quotedText password (hstops '\'' rfl)))
      have hhost := (Reads.quotedText host (Text.stops_cons (by decide))).append
        ((Reads.space _).append hpassword)
      have huser := (Reads.quotedText user (Text.stops_cons (by decide))).append
        ((Reads.mark '@' (by decide) _).append hhost)
      have hreads := (Reads.keyword "CREATE" (by decide) _).append
        ((Reads.keyword "USER" (by decide) _).append huser)
      rw [htext]
      exact hreads

theorem run_statement (statement : QuotedStatement) (text : String) :
    (Grammar.statement text).run statement.tokens = .ok (statement.statement, []) := by
  cases statement with
  | createDatabase name => exact Grammar.run_create_schema text [.quoted name]
  | use name => rfl
  | dropDatabase name => rfl
  | createUser user host password => exact Grammar.run_create_user text user host password

/-- The first word of a statement, with the rest of its text; it is not the command that sets the
delimiter. -/
theorem exists_word (statement : QuotedStatement) : ∃ word rest,
    statement.text.toList = word.toList ++ ' ' :: rest ∧ isWord word = true ∧
      Text.sameLetters word "DELIMITER" = false := by
  cases statement with
  | createDatabase name =>
      exact ⟨"CREATE", "DATABASE ".toList ++ (quotedName name).toList,
        by simp [text_createDatabase], by decide, by decide⟩
  | use name => exact ⟨"USE", (quotedName name).toList, by simp [text_use], by decide, by decide⟩
  | dropDatabase name =>
      exact ⟨"DROP", "DATABASE ".toList ++ (quotedName name).toList,
        by simp [text_dropDatabase], by decide, by decide⟩
  | createUser user host password =>
      refine ⟨"CREATE", "USER ".toList ++ (quotedText user ++ "@" ++ quotedText host ++
        " IDENTIFIED BY " ++ quotedText password).toList, ?_, by decide, by decide⟩
      simp only [text_createUser, String.toList_append, List.append_assoc]
      rfl

/-- The text does not end with white space, since it ends with a quote. -/
theorem rdropWhile_text (statement : QuotedStatement) :
    statement.text.toList.rdropWhile isWhite = statement.text.toList := by
  have hquote : ∀ {mark : Char} (front body : List Char), isWhite mark = false →
      (front ++ mark :: (body ++ [mark])).rdropWhile isWhite =
        front ++ mark :: (body ++ [mark]) := by
    intro mark front body hmark
    rw [Text.rdropWhile_append_cons hmark, List.rdropWhile_concat_neg _ _ _ (by simp [hmark])]
  cases statement with
  | createDatabase name =>
      rw [text_createDatabase, String.toList_append, toList_quotedName, hquote _ _ rfl]
  | use name => rw [text_use, String.toList_append, toList_quotedName, hquote _ _ rfl]
  | dropDatabase name =>
      rw [text_dropDatabase, String.toList_append, toList_quotedName, hquote _ _ rfl]
  | createUser user host password =>
      rw [text_createUser, String.toList_append, toList_quotedText, hquote _ _ rfl]

theorem isStatementText (statement : QuotedStatement) :
    IsStatementText statement.text statement.tokens where
  reads := statement.reads
  begins := statement.exists_word
  ends := statement.rdropWhile_text

/-- A chunk with the text of a statement is read as the statement. -/
theorem parse_chunk (statement : QuotedStatement) (line : Nat) :
    Chunk.parse ⟨statement.text, line⟩ =
      .ok (some ⟨line, statement.text, statement.statement⟩) := by
  refine statement.isStatementText.parse_chunk ?_ (statement.run_statement _) line
  cases statement <;> exact List.cons_ne_nil _ _

theorem toList_script_singleton (statement : QuotedStatement) :
    (script [statement]).toList = statement.text.toList ++ [';'] := by
  simp [script, Text.join]

theorem toList_script_cons (statement next : QuotedStatement) (statements : List QuotedStatement) :
    (script (statement :: next :: statements)).toList =
      statement.text.toList ++ ';' :: '\n' :: (script (next :: statements)).toList := by
  simp [script, Text.join, String.toList_intercalate]

/-- The chunks of a script are the texts of its statements. -/
theorem text_chunksFrom : ∀ (statements : List QuotedStatement) (cursor : Cursor),
    cursor.delimiter = [';'] → cursor.pending = none →
    (chunksFrom cursor (script statements).toList).map Chunk.text = statements.map text
  | [], cursor, _, hpending => by
      have hempty : (script []).toList = [] := rfl
      rw [hempty, chunksFrom.eq_def]
      simp [cursor.finished_of_none hpending]
  | [statement], cursor, hdelimiter, hpending => by
      obtain ⟨line, next, _, hnone, _, hchunks⟩ := statement.isStatementText.chunksFrom_text []
        hdelimiter hpending
      rw [toList_script_singleton, hchunks, chunksFrom.eq_def]
      simp [next.finished_of_none hnone]
  | statement :: following :: statements, cursor, hdelimiter, hpending => by
      obtain ⟨line, next, hnext, hnone, hinLine, hchunks⟩ :=
        statement.isStatementText.chunksFrom_text
          ('\n' :: (script (following :: statements)).toList) hdelimiter hpending
      -- the line feed does not begin a chunk
      have hline := @passes_line next (script (following :: statements)).toList
        (command?_of_inLine hinLine _)
      have hrest := text_chunksFrom (following :: statements) (next.take '\n').newLine
        ((next.take_delimiter _).trans hnext) (next.pending_take_of_isWhite '\n' hnone rfl)
      rw [toList_script_cons, hchunks, hline.chunksFrom_eq, List.map_cons, hrest]
      rfl

/-- Chunks with the texts of statements are read as the statements. -/
theorem exists_parsed : ∀ {chunks : List Chunk} {statements : List QuotedStatement},
    chunks.map Chunk.text = statements.map text →
    ∃ parsed : List ScriptStatement, chunks.mapM Chunk.parse = .ok (parsed.map some) ∧
      parsed.map ScriptStatement.statement = statements.map statement
  | [], [], _ => ⟨[], rfl, rfl⟩
  | [], _ :: _, h => by cases h
  | _ :: _, [], h => by cases h
  | chunk :: chunks, first :: statements, h => by
      rw [List.map_cons, List.map_cons, List.cons.injEq] at h
      obtain ⟨htext, hrest⟩ := h
      obtain ⟨parsed, hparsed, hsame⟩ := exists_parsed hrest
      have hchunk := first.parse_chunk chunk.line
      rw [← htext] at hchunk
      refine ⟨⟨chunk.line, chunk.text, first.statement⟩ :: parsed, ?_, ?_⟩
      · rw [List.mapM_cons, hchunk, hparsed]
        rfl
      · rw [List.map_cons, List.map_cons, hsame]

/-- A script of statements that name things in quotes is read as these statements, whatever the
names are. -/
theorem parseScript_script (statements : List QuotedStatement) :
    (parseScript (script statements)).map (·.map ScriptStatement.statement) =
      .ok (statements.map statement) := by
  obtain ⟨parsed, hparsed, hsame⟩ := exists_parsed (text_chunksFrom statements {} rfl rfl)
  rw [parseScript, chunks, hparsed]
  simp [Except.map, List.filterMap_map, hsame]

/-- Neither the backtick nor the semicolon nor the line in the name ends it. -/
example : script [.use "a`;\nDELIMITER x"] = "USE `a``;\nDELIMITER x`;" := by decide

end QuotedStatement

end Sql
end SchemaLint
