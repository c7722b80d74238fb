import Mathlib.Data.List.Basic
import SpiceDB.Lib.Utf8
import SpiceDB.Lib.Except

namespace SpiceDB.Schemadsl

open Utf8

inductive TokenType where
  | error | syntheticSemicolon | eof | whitespace | singlelineComment | multilineComment
  | newline | keyword | identifier | number | leftBrace | rightBrace | leftParen | rightParen
  | pipe | plus | minus | and | div | equals | colon | semicolon | rightArrow | hash | ellipsis
  | star | questionMark | conditionalOr | conditionalAnd | exclamationPoint | leftBracket
  | rightBracket | period | comma | percent | lessThan | greaterThan | lessThanOrEqual
  | greaterThanOrEqual | equalEqual | notEqual | string
  deriving DecidableEq, Repr

/-- `Lexeme`: its value is the bytes of the input it spans. -/
structure Lexeme where
  kind : TokenType
  position : ℤ
  value : List ℕ
  error : String
  deriving DecidableEq, Repr

/-- `unicode.IsLetter`, `unicode.IsDigit` and `strconv.IsPrint`. -/
structure UnicodeTables where
  isLetter : ℤ → Bool
  isDigit : ℤ → Bool
  isPrint : ℤ → Bool

/-- A run-time panic: a slice expression out of range. -/
inductive Panic where
  | sliceBoundsOutOfRange (low high : ℤ) (length : ℕ)
  deriving DecidableEq, Repr

def slice (s : List ℕ) (low high : ℤ) : Except Panic (List ℕ) :=
  if 0 ≤ low ∧ low ≤ high ∧ high ≤ s.length then .ok ((s.drop low.toNat).take (high - low).toNat)
  else .error (.sliceBoundsOutOfRange low high s.length)

def eofRune : ℤ := -1

/-- A rune literal. -/
def rune (c : Char) : ℤ := c.toNat

/-- `Lexer`, its channel as the list of what was sent on it. -/
structure Lexer where
  input : List ℕ
  pos : ℤ
  start : ℤ
  width : ℤ
  lastNonIgnoredToken : Lexeme
  tokens : List Lexeme

/-- What the lexer's goroutine runs next: a turn of a state function's loop, or the part of a
state function before its loop. -/
inductive Point where
  | lexerEntrypoint
  | lexIdentifierOrKeyword
  | lexStringLiteral
  | lexStringLiteralLoop (terminator : String) (allowNewlines : Bool)
  | lexSinglelineComment
  | lexUntil (findType : TokenType) (checker : ℤ → Except String Bool)
  | lexMultilineComment
  | lexMultilineCommentLoop
  | stopped

abbrev LexM := StateT Lexer (Except Panic)

namespace Lexer

/-- `createLexer`: the zero `lastNonIgnoredToken` is an error token. -/
def init (input : List ℕ) : Lexer := ⟨input, 0, 0, 0, ⟨.error, 0, [], ""⟩, []⟩

def next : LexM ℤ := do
  let l ← get
  if l.pos ≥ l.input.length then
    set { l with width := 0 }
    return eofRune
  let rest ← (slice l.input l.pos l.input.length : Except Panic (List ℕ))
  let (r, w) := decodeRune rest
  set { l with width := (w : ℤ), pos := l.pos + w }
  return r

def backup : LexM Unit :=
  modify fun l => { l with pos := l.pos - l.width }

def peek : LexM ℤ := do
  let r ← next
  backup
  return r

def value : LexM (List ℕ) := do
  let l ← get
  slice l.input l.start l.pos

/-- The token types `emit` does not record as `lastNonIgnoredToken`. -/
def isIgnored (t : TokenType) : Bool :=
  t = .whitespace || t = .multilineComment || t = .singlelineComment

def emit (t : TokenType) : LexM Unit := do
  let v ← value
  let l ← get
  let currentToken : Lexeme := ⟨t, l.start, v, ""⟩
  set { l with
    lastNonIgnoredToken := if isIgnored t then l.lastNonIgnoredToken else currentToken
    tokens := l.tokens ++ [currentToken]
    start := l.pos }

/-- `errorf`: the error token, and no state to run next. -/
def errorf (currentRune : ℤ) (message : String) : LexM Point := do
  modify fun l => { l with tokens := l.tokens ++ [⟨.error, l.start, encodeRune currentRune, message⟩] }
  return .stopped

def backupTimes : ℕ → LexM Unit
  | 0 => pure ()
  | n + 1 => do
    backup
    backupTimes n

/-- The loop of `acceptString` and of `peekValue` over the runes of the value, with the byte
offset of each: on a mismatch it backs up once more than that offset. -/
def acceptRunes : ℕ → List Char → LexM Bool
  | _, [] => return true
  | index, runeValue :: rest => do
    if (← next) ≠ rune runeValue then
      backupTimes (index + 1)
      return false
    acceptRunes (index + runeValue.utf8Size) rest

def acceptString (value : String) : LexM Bool := acceptRunes 0 value.toList

def peekValue (value : String) : LexM Bool := do
  if ← acceptRunes 0 value.toList then
    backupTimes value.utf8ByteSize
    return true
  return false

def accept (valid : String) : LexM Bool := do
  let nextRune ← next
  if valid.toList.any fun c => rune c = nextRune then return true
  backup
  return false

theorem drop_succ_of_drop_eq_cons {input rest : List ℕ} {p b : ℕ}
    (h : input.drop p = b :: rest) : input.drop (p + 1) = rest := by
  rw [← List.drop_drop, h]
  rfl

theorem next_run_decode {l : Lexer} {p : ℕ} {bs : List ℕ} (hpos : l.pos = p)
    (hdrop : l.input.drop p = bs) (hlt : p < l.input.length) :
    next.run l = .ok ((decodeRune bs).1,
      { l with width := (decodeRune bs).2, pos := p + (decodeRune bs).2 }) := by
  have hslice : slice l.input p l.input.length = .ok bs := by
    rw [slice, if_pos (by omega), ← hdrop]
    exact congrArg Except.ok (List.take_of_length_le (by simp))
  have hin : ¬ l.pos ≥ l.input.length := by omega
  simp only [next, StateT.run_bind, StateT.run_get, pure_bind, if_neg hin]
  simp [liftM, monadLift, MonadLift.monadLift, hpos, hslice]

theorem next_run_ascii {l : Lexer} {p b : ℕ} {rest : List ℕ} (hpos : l.pos = p)
    (hdrop : l.input.drop p = b :: rest) (hb : b < 0x80) :
    next.run l = .ok ((b : ℤ), { l with width := 1, pos := p + 1 }) := by
  have hlt : p < l.input.length := by
    have hlen := congrArg List.length hdrop
    simp only [List.length_drop, List.length_cons] at hlen
    omega
  rw [next_run_decode hpos hdrop hlt, decodeRune_ascii hb]
  rfl

theorem next_run_eof {l : Lexer} (hend : l.pos ≥ l.input.length) :
    next.run l = .ok (eofRune, { l with width := 0 }) := by
  simp only [next, StateT.run_bind, StateT.run_get, pure_bind, if_pos hend]
  rfl

theorem next_run_before_start {l : Lexer} (hneg : l.pos < 0) :
    next.run l = .error (.sliceBoundsOutOfRange l.pos l.input.length l.input.length) := by
  have hin : ¬ l.pos ≥ l.input.length := by omega
  have hslice : slice l.input l.pos l.input.length =
      .error (.sliceBoundsOutOfRange l.pos l.input.length l.input.length) := by
    rw [slice, if_neg (by omega)]
  simp only [next, StateT.run_bind, StateT.run_get, pure_bind, if_neg hin]
  simp [liftM, monadLift, MonadLift.monadLift, hslice]

theorem backupTimes_run (n : ℕ) : ∀ l : Lexer,
    (backupTimes n).run l = .ok ((), { l with pos := l.pos - n * l.width }) := by
  induction n with
  | zero => intro l; simp [backupTimes]
  | succ n ih =>
    intro l
    simp only [backupTimes, backup, StateT.run_bind, StateT.run_modify, Except.pure_eq_ok,
      Except.ok_bind, ih]
    rw [Int.natCast_add, Int.cast_ofNat_Int, Int.add_mul, Int.one_mul, Int.sub_sub, Int.add_comm]

theorem acceptRunes_run_match {l l' : Lexer} {index : ℕ} {c : Char} {cs : List Char}
    (hnext : next.run l = .ok (rune c, l')) :
    (acceptRunes index (c :: cs)).run l = (acceptRunes (index + c.utf8Size) cs).run l' := by
  simp [acceptRunes, StateT.run_bind, hnext]

theorem acceptRunes_run_mismatch {l l' : Lexer} {r : ℤ} {index : ℕ} {c : Char} {cs : List Char}
    (hnext : next.run l = .ok (r, l')) (hr : r ≠ rune c) :
    (acceptRunes index (c :: cs)).run l =
      .ok (false, { l' with pos := l'.pos - (index + 1 : ℕ) * l'.width }) := by
  simp [acceptRunes, StateT.run_bind, hnext, hr, backupTimes_run]

/-- Runes of one byte that the input holds at `pos` are accepted one byte each. -/
theorem acceptRunes_run_ascii (c : Char) (cs : List Char) :
    ∀ (index : ℕ) (l : Lexer) (p : ℕ) (rest : List ℕ), l.pos = p →
      l.input.drop p = (c :: cs).map (fun d => d.toNat) ++ rest →
      (∀ d ∈ c :: cs, d.toNat < 0x80) →
      (acceptRunes index (c :: cs)).run l =
        .ok (true, { l with width := 1, pos := p + (cs.length + 1 : ℕ) }) := by
  induction cs generalizing c with
  | nil =>
    intro index l p rest hpos hdrop hascii
    rw [acceptRunes_run_match (next_run_ascii hpos hdrop (hascii c List.mem_cons_self))]
    simp [acceptRunes]
  | cons d ds ih =>
    intro index l p rest hpos hdrop hascii
    rw [acceptRunes_run_match (next_run_ascii hpos hdrop (hascii c List.mem_cons_self)),
      ih d _ { l with width := 1, pos := p + 1 } (p + 1) rest (by simp)
        (drop_succ_of_drop_eq_cons hdrop) (fun e he => hascii e (List.mem_cons_of_mem c he))]
    congr 3
    simp only [List.length_cons]
    omega

theorem peekValue_run_mismatch {l l' : Lexer} {r : ℤ} {value : String} {c : Char}
    {cs : List Char} (hvalue : value.toList = c :: cs) (hnext : next.run l = .ok (r, l'))
    (hr : r ≠ rune c) :
    (peekValue value).run l = .ok (false, { l' with pos := l'.pos - l'.width }) := by
  simp [peekValue, hvalue, StateT.run_bind, acceptRunes_run_mismatch hnext hr]

end Lexer

open Lexer

def isSpace (r : ℤ) : Bool := r = rune ' ' || r = rune '\t'

def isNewline (r : ℤ) : Bool := r = rune '\r' || r = rune '\n'

def keywords : List String := ["definition", "caveat", "relation", "permission", "nil", "with"]

def syntheticPredecessors : List TokenType := [.identifier, .keyword, .rightBrace, .rightParen, .star]

/-- The digits of `%U`, in upper case. -/
def hexUpper (n : ℕ) : List Char := (Nat.toDigits 16 n).map Char.toUpper

section StateFunctions

variable (tables : UnicodeTables)

def isAlphaNumeric (r : ℤ) : Bool := r = rune '_' || tables.isLetter r || tables.isDigit r

/-- `%#U`: `U+` and four hexadecimal digits or more, then the rune quoted if printable. -/
def formatRuneU (r : ℤ) : String :=
  let digits := hexUpper r.toNat
  "U+" ++ String.ofList (List.replicate (4 - digits.length) '0' ++ digits) ++
    if tables.isPrint r then " '" ++ String.ofList [Char.ofNat r.toNat] ++ "'" else ""

/-- A turn of `lexerEntrypoint`'s loop. -/
def lexerEntrypoint : LexM Point := do
  let r ← next
  if r = eofRune then
    emit .eof
    return .stopped
  else if r = rune '{' then emit .leftBrace
  else if r = rune '}' then emit .rightBrace
  else if r = rune '(' then emit .leftParen
  else if r = rune ')' then emit .rightParen
  else if r = rune '+' then emit .plus
  else if r = rune '|' then
    if ← acceptString "|" then emit .conditionalOr else emit .pipe
  else if r = rune '&' then
    if ← acceptString "&" then emit .conditionalAnd else emit .and
  else if r = rune '?' then emit .questionMark
  else if r = rune '!' then
    if ← acceptString "=" then emit .notEqual else emit .exclamationPoint
  else if r = rune '[' then emit .leftBracket
  else if r = rune ']' then emit .rightBracket
  else if r = rune '%' then emit .percent
  else if r = rune '<' then
    if ← acceptString "=" then emit .lessThanOrEqual else emit .lessThan
  else if r = rune '>' then
    if ← acceptString "=" then emit .greaterThanOrEqual else emit .greaterThan
  else if r = rune ',' then emit .comma
  else if r = rune '=' then
    if ← acceptString "=" then emit .equalEqual else emit .equals
  else if r = rune ':' then emit .colon
  else if r = rune ';' then emit .semicolon
  else if r = rune '#' then emit .hash
  else if r = rune '*' then emit .star
  else if r = rune '.' then
    if ← acceptString ".." then emit .ellipsis else emit .period
  else if r = rune '-' then
    if ← accept ">" then emit .rightArrow else emit .minus
  else if isSpace r then emit .whitespace
  else if isNewline r then
    -- a newline after a token that can end a statement is a semicolon
    if (← get).lastNonIgnoredToken.kind ∈ syntheticPredecessors then emit .syntheticSemicolon
    else emit .newline
  else if isAlphaNumeric tables r then
    backup
    return .lexIdentifierOrKeyword
  else if r = rune '\'' || r = rune '"' then
    backup
    return .lexStringLiteral
  else if r = rune '/' then
    if ← peekValue "/" then
      backup
      return .lexSinglelineComment
    if ← peekValue "*" then
      backup
      return .lexMultilineComment
    emit .div
  else return ← errorf r ("unrecognized character at this location: " ++ formatRuneU tables r)
  return .lexerEntrypoint

/-- `lexStringLiteral` up to its loop. The opening `'''` takes `"""` as its terminator. -/
def lexStringLiteral : LexM Point := do
  if ← acceptString "\"\"\"" then return .lexStringLiteralLoop "\"\"\"" true
  if ← acceptString "'''" then return .lexStringLiteralLoop "\"\"\"" true
  if ← acceptString "\"" then return .lexStringLiteralLoop "\"" false
  if ← acceptString "'" then return .lexStringLiteralLoop "'" false
  return .lexStringLiteralLoop "" false

/-- A turn of `lexStringLiteral`'s loop. -/
def lexStringLiteralLoop (terminator : String) (allowNewlines : Bool) : LexM Point := do
  if ← peekValue terminator then
    let _ ← acceptString terminator
    emit .string
    return .lexerEntrypoint
  let r ← next
  if !allowNewlines && isNewline r then return ← errorf r "Unterminated string"
  if r = eofRune then return ← errorf r "Unterminated string"
  return .lexStringLiteralLoop terminator allowNewlines

/-- The checker of `lexSinglelineComment`. -/
def singlelineCommentChecker (r : ℤ) : Except String Bool := pure !(r = eofRune || isNewline r)

def lexSinglelineComment : LexM Point := do
  let _ ← acceptString "//"
  return .lexUntil .singlelineComment singlelineCommentChecker

/-- A turn of the loop of the state function `buildLexUntil` builds. -/
def lexUntil (findType : TokenType) (checker : ℤ → Except String Bool) : LexM Point := do
  let r ← next
  match checker r with
  | .error err => errorf r err
  | .ok true => return .lexUntil findType checker
  | .ok false =>
    backup
    emit findType
    return .lexerEntrypoint

def lexMultilineComment : LexM Point := do
  let _ ← acceptString "/*"
  return .lexMultilineCommentLoop

/-- A turn of `lexMultilineComment`'s loop. -/
def lexMultilineCommentLoop : LexM Point := do
  if ← peekValue "*/" then
    let _ ← acceptString "*/"
    emit .multilineComment
    return .lexerEntrypoint
  let r ← next
  if r = eofRune then return ← errorf r "Unterminated multiline comment"
  return .lexMultilineCommentLoop

/-- A turn of `lexIdentifierOrKeyword`'s loop, which ends by emitting the token. -/
def lexIdentifierOrKeyword : LexM Point := do
  if isAlphaNumeric tables (← peek) then
    let _ ← next
    return .lexIdentifierOrKeyword
  let v ← value
  if keywords.any fun keyword => bytesOf keyword = v then emit .keyword else emit .identifier
  return .lexerEntrypoint

def step : Point → LexM Point
  | .lexerEntrypoint => lexerEntrypoint tables
  | .lexIdentifierOrKeyword => lexIdentifierOrKeyword tables
  | .lexStringLiteral => lexStringLiteral
  | .lexStringLiteralLoop terminator allowNewlines => lexStringLiteralLoop terminator allowNewlines
  | .lexSinglelineComment => lexSinglelineComment
  | .lexUntil findType checker => lexUntil findType checker
  | .lexMultilineComment => lexMultilineComment
  | .lexMultilineCommentLoop => lexMultilineCommentLoop
  | .stopped => return .stopped

/-- How a run ends. -/
inductive Halt where
  | stopped
  | panicked (panic : Panic)
  | outOfFuel
  deriving DecidableEq, Repr

/-- The tokens sent, and how the run ended. -/
structure Outcome where
  tokens : List Lexeme
  halt : Halt
  deriving DecidableEq, Repr

/-- `run`, for at most `fuel` steps. -/
def run : ℕ → Lexer → Point → Outcome
  | _, l, .stopped => ⟨l.tokens, .stopped⟩
  | 0, l, _ => ⟨l.tokens, .outOfFuel⟩
  | fuel + 1, l, p =>
    match (step tables p).run l with
    | .error panic => ⟨l.tokens, .panicked panic⟩
    | .ok (p', l') => run fuel l' p'

/-- `Lex` and a reader of all its tokens. -/
def lex (fuel : ℕ) (input : String) : Outcome :=
  run tables fuel (Lexer.init (bytesOf input)) .lexerEntrypoint

/-- The empty period emitted at the start of the input. -/
def emptyPeriod : Lexeme := ⟨.period, 0, [], ""⟩

theorem lexerEntrypoint_periods_before_two_bytes (w : ℤ) (last : Lexeme) (ts : List Lexeme) :
    (lexerEntrypoint tables).run ⟨[46, 46, 0xC3, 0xA9], 0, 0, w, last, ts⟩ =
      .ok (.lexerEntrypoint, ⟨[46, 46, 0xC3, 0xA9], 0, 0, 2, emptyPeriod, ts ++ [emptyPeriod]⟩) :=
  rfl

theorem lexerEntrypoint_periods_before_three_bytes (w : ℤ) (last : Lexeme) (ts : List Lexeme) :
    (lexerEntrypoint tables).run ⟨[46, 46, 0xE2, 0x82, 0xAC], 0, 0, w, last, ts⟩ =
      .error (.sliceBoundsOutOfRange 0 (-1) 5) :=
  rfl

theorem run_periods_before_two_bytes (fuel : ℕ) :
    ∀ (w : ℤ) (last : Lexeme) (ts : List Lexeme),
      run tables fuel ⟨[46, 46, 0xC3, 0xA9], 0, 0, w, last, ts⟩ .lexerEntrypoint =
        ⟨ts ++ List.replicate fuel emptyPeriod, .outOfFuel⟩ := by
  induction fuel with
  | zero => intro w last ts; simp [run]
  | succ fuel ih =>
    intro w last ts
    -- each turn ends where it began, with one more empty period sent
    simp only [run, step, lexerEntrypoint_periods_before_two_bytes, ih, List.append_assoc,
      List.singleton_append, List.replicate_succ]

/-- The lexer is neither total nor lossless after a rune of several bytes: on `..é` it emits
an empty period at position 0 for ever, and on `..€` it panics before emitting a token. -/
theorem lex_loops_or_panics_after_multibyte_rune :
    (∀ fuel, lex tables fuel "..é" = ⟨List.replicate fuel ⟨.period, 0, [], ""⟩, .outOfFuel⟩) ∧
      ∀ fuel, lex tables (fuel + 1) "..€" = ⟨[], .panicked (.sliceBoundsOutOfRange 0 (-1) 5)⟩ := by
  have htwo : bytesOf "..é" = [46, 46, 0xC3, 0xA9] := by decide +kernel
  have hthree : bytesOf "..€" = [46, 46, 0xE2, 0x82, 0xAC] := by decide +kernel
  refine ⟨fun fuel => ?_, fun fuel => ?_⟩
  · rw [lex, htwo]
    exact run_periods_before_two_bytes tables fuel 0 _ []
  · simp only [lex, hthree, Lexer.init, run, step, lexerEntrypoint_periods_before_three_bytes]

/-- The error `lexStringLiteral` sends at the end of the input. -/
def unterminatedString (l : Lexer) : Lexeme :=
  ⟨.error, l.start, encodeRune eofRune, "Unterminated string"⟩

theorem toList_tripleDoubleQuote : "\"\"\"".toList = ['"', '"', '"'] := by decide

theorem toList_tripleSingleQuote : "'''".toList = ['\'', '\'', '\''] := by decide

/-- A turn of the loop at a byte that does not start the terminator reads it and loops. -/
theorem lexStringLiteralLoop_run_ascii {terminator : String} {allowNewlines : Bool} {c : Char}
    {cs : List Char} (hterm : terminator.toList = c :: cs) {l : Lexer} {p b : ℕ}
    {rest : List ℕ} (hpos : l.pos = p) (hdrop : l.input.drop p = b :: rest) (hb : b < 0x80)
    (hc : (b : ℤ) ≠ rune c) (hnl : (allowNewlines || !isNewline b) = true) :
    (lexStringLiteralLoop terminator allowNewlines).run l =
      .ok (.lexStringLiteralLoop terminator allowNewlines, { l with width := 1, pos := p + 1 }) := by
  -- the peek reads `b` and backs up over it; the loop then reads it for good
  have hpeek : (peekValue terminator).run l = .ok (false, { l with width := 1, pos := p }) := by
    rw [peekValue_run_mismatch hterm (next_run_ascii hpos hdrop hb) hc]
    simp
  have hnext : next.run { l with width := 1, pos := p } =
      .ok ((b : ℤ), { l with width := 1, pos := p + 1 }) :=
    next_run_ascii rfl hdrop hb
  have hnewline : ¬ (allowNewlines = false ∧ isNewline b = true) := by
    cases allowNewlines <;> simp_all
  have heof : (b : ℤ) ≠ eofRune := by
    simp only [eofRune]
    omega
  simp [lexStringLiteralLoop, StateT.run_bind, hpeek, hnext, hnewline, heof]

/-- At the end of the input the loop sends the error and stops. -/
theorem lexStringLiteralLoop_run_eof {terminator : String} {allowNewlines : Bool} {c : Char}
    {cs : List Char} (hterm : terminator.toList = c :: cs) {l : Lexer}
    (hend : l.pos ≥ l.input.length) :
    (lexStringLiteralLoop terminator allowNewlines).run l =
      .ok (.stopped, { l with width := 0, tokens := l.tokens ++ [unterminatedString l] }) := by
  have hc : eofRune ≠ rune c := by
    simp only [eofRune, rune]
    omega
  have hpeek : (peekValue terminator).run l = .ok (false, { l with width := 0 }) := by
    rw [peekValue_run_mismatch hterm (next_run_eof hend) hc]
    simp
  have hnext : next.run { l with width := 0 } = .ok (eofRune, { l with width := 0 }) :=
    next_run_eof hend
  simp [lexStringLiteralLoop, StateT.run_bind, hpeek, hnext, isNewline, eofRune, rune, errorf,
    unterminatedString]

/-- A literal whose terminator never comes runs to the end of the input, a byte a turn, and
ends with the unterminated-string error. -/
theorem run_lexStringLiteralLoop_unterminated {terminator : String} {allowNewlines : Bool}
    {c : Char} {cs : List Char} (hterm : terminator.toList = c :: cs) :
    ∀ (rest : List ℕ) (l : Lexer) (p : ℕ), l.pos = p → l.input.drop p = rest →
      (∀ b ∈ rest, b < 0x80 ∧ (b : ℤ) ≠ rune c ∧ (allowNewlines || !isNewline b) = true) →
      ∀ fuel, rest.length < fuel →
        run tables fuel l (.lexStringLiteralLoop terminator allowNewlines) =
          ⟨l.tokens ++ [unterminatedString l], .stopped⟩ := by
  intro rest
  induction rest with
  | nil =>
    intro l p hpos hdrop _ fuel hfuel
    obtain ⟨fuel, rfl⟩ : ∃ f, fuel = f + 1 := ⟨fuel - 1, by simp at hfuel; omega⟩
    have hend : l.pos ≥ l.input.length := by
      have := List.drop_eq_nil_iff.1 hdrop
      omega
    simp [run, step, lexStringLiteralLoop_run_eof hterm hend]
  | cons b rest ih =>
    intro l p hpos hdrop hrest fuel hfuel
    obtain ⟨fuel, rfl⟩ : ∃ f, fuel = f + 1 := ⟨fuel - 1, by simp at hfuel; omega⟩
    obtain ⟨hb, hc, hnl⟩ := hrest b List.mem_cons_self
    simp only [run, step, lexStringLiteralLoop_run_ascii hterm hpos hdrop hb hc hnl]
    -- the next turns run from one byte further, with the tokens and the start unchanged
    exact ih { l with width := 1, pos := p + 1 } (p + 1) (by simp)
      (drop_succ_of_drop_eq_cons hdrop) (fun b hb => hrest b (List.mem_cons_of_mem _ hb)) fuel
      (by simp at hfuel; omega)

theorem lexerEntrypoint_run_quote {l : Lexer} {p q : ℕ} {rest : List ℕ} (hpos : l.pos = p)
    (hdrop : l.input.drop p = q :: rest) (hq : q = 39 ∨ q = 34)
    (hletter : tables.isLetter q = false) (hdigit : tables.isDigit q = false) :
    (lexerEntrypoint tables).run l = .ok (.lexStringLiteral, { l with width := 1, pos := p }) := by
  have hnext := next_run_ascii hpos hdrop (by omega)
  -- the chain of comparisons is decided at the concrete quote
  rcases hq with rfl | rfl <;>
  · simp only [Int.cast_ofNat_Int] at hletter hdigit hnext
    simp [lexerEntrypoint, StateT.run_bind, hnext, rune, isSpace, isNewline, isAlphaNumeric,
      hletter, hdigit, eofRune, backup]

theorem lexStringLiteral_run_tripleSingleQuote {l : Lexer} {p : ℕ} {rest : List ℕ}
    (hpos : l.pos = p) (hdrop : l.input.drop p = 39 :: 39 :: 39 :: rest) :
    lexStringLiteral.run l =
      .ok (.lexStringLiteralLoop "\"\"\"" true, { l with width := 1, pos := p + 3 }) := by
  have hdouble : (acceptString "\"\"\"").run l = .ok (false, { l with width := 1, pos := p }) := by
    rw [acceptString, toList_tripleDoubleQuote,
      acceptRunes_run_mismatch (next_run_ascii hpos hdrop (by decide)) (by decide)]
    simp
  have hsingle : (acceptString "'''").run { l with width := 1, pos := p } =
      .ok (true, { l with width := 1, pos := p + 3 }) := by
    rw [acceptString, toList_tripleSingleQuote]
    exact acceptRunes_run_ascii _ _ 0 _ p rest rfl hdrop (by simp)
  simp [lexStringLiteral, StateT.run_bind, hdouble, hsingle]

/-- After an opening `"` and a rune of width `w`, the attempt at `"""` backs up twice by `w`;
from `p + 1 - w` before the start of the input, the attempt at `'''` slices out of range. -/
theorem lexStringLiteral_run_wide_rune {l : Lexer} {p : ℕ} {rest : List ℕ} {r : ℤ} {w : ℕ}
    (hpos : l.pos = p) (hdrop : l.input.drop p = 34 :: rest) (hdecode : decodeRune rest = (r, w))
    (hr : r ≠ rune '"') (hw : p + 1 < w) :
    lexStringLiteral.run l =
      .error (.sliceBoundsOutOfRange ((p : ℤ) + 1 - w) l.input.length l.input.length) := by
  have hrest : rest ≠ [] := by
    rintro rfl
    simp [decodeRune] at hdecode
    omega
  have hlt : p + 1 < l.input.length := by
    have hlen := congrArg List.length hdrop
    simp only [List.length_drop, List.length_cons] at hlen
    have := List.length_pos_iff.2 hrest
    omega
  have hquote : next.run l = .ok (rune '"', { l with width := 1, pos := p + 1 }) :=
    next_run_ascii hpos hdrop (by decide)
  have hwide : next.run { l with width := 1, pos := p + 1 } =
      .ok (r, { l with width := w, pos := p + 1 + w }) := by
    rw [next_run_decode (l := { l with width := 1, pos := p + 1 }) (p := p + 1) (by simp)
      (drop_succ_of_drop_eq_cons hdrop) hlt, hdecode]
    simp
  have hdouble : (acceptString "\"\"\"").run l =
      .ok (false, { l with width := w, pos := p + 1 - w }) := by
    rw [acceptString, toList_tripleDoubleQuote, acceptRunes_run_match hquote,
      acceptRunes_run_mismatch hwide hr]
    have hsize : '"'.utf8Size = 1 := by decide
    simp [hsize]
    omega
  have hsingle : (acceptString "'''").run { l with width := w, pos := p + 1 - w } =
      .error (.sliceBoundsOutOfRange ((p : ℤ) + 1 - w) l.input.length l.input.length) := by
    rw [acceptString, toList_tripleSingleQuote]
    simp [acceptRunes, StateT.run_bind, next_run_before_start (l := { l with width := w, pos := p + 1 - w }) (by simp; omega)]
  simp [lexStringLiteral, StateT.run_bind, hdouble, hsingle]

/-- Neither quoted form below lexes to a string token: a literal opened and closed by `'''`
with content of one-byte runes other than `"` ends with the unterminated-string error and no
string token, and a literal opened by `"` whose first rune has two bytes or more panics before
sending a token. -/
theorem lex_string_literal_unterminated_or_panics
    (hsingle : tables.isLetter (rune '\'') = false ∧ tables.isDigit (rune '\'') = false)
    (hdouble : tables.isLetter (rune '"') = false ∧ tables.isDigit (rune '"') = false) :
    (∀ content : List ℕ, (∀ b ∈ content, b < 0x80 ∧ b ≠ 34) → ∀ fuel, content.length + 6 ≤ fuel →
      run tables fuel (Lexer.init ([39, 39, 39] ++ content ++ [39, 39, 39])) .lexerEntrypoint =
        ⟨[⟨.error, 0, encodeRune eofRune, "Unterminated string"⟩], .stopped⟩) ∧
    ∀ (content : List ℕ) (r : ℤ) (w : ℕ), decodeRune content = (r, w) → 2 ≤ w → r ≠ rune '"' →
      ∀ fuel, run tables (fuel + 2) (Lexer.init (34 :: content)) .lexerEntrypoint =
        ⟨[], .panicked (.sliceBoundsOutOfRange (1 - w) (content.length + 1) (content.length + 1))⟩ := by
  refine ⟨fun content hcontent fuel hfuel => ?_, fun content r w hdecode hw hr fuel => ?_⟩
  · obtain ⟨fuel, rfl⟩ : ∃ f, fuel = f + 2 := ⟨fuel - 2, by omega⟩
    have hentry : (lexerEntrypoint tables).run (Lexer.init ([39, 39, 39] ++ content ++ [39, 39, 39])) =
        .ok (.lexStringLiteral,
          { Lexer.init ([39, 39, 39] ++ content ++ [39, 39, 39]) with width := 1, pos := 0 }) :=
      lexerEntrypoint_run_quote tables rfl rfl (.inl rfl) hsingle.1 hsingle.2
    have hopen : lexStringLiteral.run
          { Lexer.init ([39, 39, 39] ++ content ++ [39, 39, 39]) with width := 1, pos := 0 } =
        .ok (.lexStringLiteralLoop "\"\"\"" true,
          { Lexer.init ([39, 39, 39] ++ content ++ [39, 39, 39]) with width := 1, pos := 3 }) :=
      lexStringLiteral_run_tripleSingleQuote rfl rfl
    -- from the third byte on no byte is a `"`, so the loop reads to the end of the input
    have hloop : run tables fuel
          { Lexer.init ([39, 39, 39] ++ content ++ [39, 39, 39]) with width := 1, pos := 3 }
          (.lexStringLiteralLoop "\"\"\"" true) =
        ⟨[] ++ [unterminatedString (Lexer.init ([39, 39, 39] ++ content ++ [39, 39, 39]))],
          .stopped⟩ :=
      run_lexStringLiteralLoop_unterminated tables toList_tripleDoubleQuote
        (content ++ [39, 39, 39]) _ 3 rfl rfl ?_ fuel (by simp; omega)
    · simp only [run, step, hentry, hopen, hloop]
      rfl
    · intro b hb
      rcases List.mem_append.1 hb with hb | hb
      · obtain ⟨hlt, hne⟩ := hcontent b hb
        refine ⟨hlt, ?_, by simp⟩
        rw [show rune '"' = 34 from rfl]
        omega
      · simp at hb
        subst hb
        decide
  · have hentry : (lexerEntrypoint tables).run (Lexer.init (34 :: content)) =
        .ok (.lexStringLiteral, { Lexer.init (34 :: content) with width := 1, pos := 0 }) :=
      lexerEntrypoint_run_quote tables rfl rfl (.inr rfl) hdouble.1 hdouble.2
    have hopen : lexStringLiteral.run { Lexer.init (34 :: content) with width := 1, pos := 0 } =
        .error (.sliceBoundsOutOfRange (1 - w) (content.length + 1) (content.length + 1)) := by
      rw [lexStringLiteral_run_wide_rune (p := 0) rfl rfl hdecode hr (by omega)]
      simp [Lexer.init]
    simp only [run, step, hentry, hopen]
    rfl

/-- Under tables by which no quote is a letter or a digit, `'''a'''` ends with the error and
`"é"` panics. -/
theorem lex_string_literal_unterminated_or_panics_at_a :
    lex ⟨fun _ => false, fun _ => false, fun _ => true⟩ 7 "'''a'''" =
        ⟨[⟨.error, 0, encodeRune eofRune, "Unterminated string"⟩], .stopped⟩ ∧
      lex ⟨fun _ => false, fun _ => false, fun _ => true⟩ 2 "\"é\"" =
        ⟨[], .panicked (.sliceBoundsOutOfRange (-1) 4 4)⟩ := by
  have hsingle : bytesOf "'''a'''" = [39, 39, 39] ++ [97] ++ [39, 39, 39] := by decide +kernel
  have hdouble : bytesOf "\"é\"" = 34 :: [0xC3, 0xA9, 34] := by decide +kernel
  have h := lex_string_literal_unterminated_or_panics ⟨fun _ => false, fun _ => false, fun _ => true⟩
    ⟨rfl, rfl⟩ ⟨rfl, rfl⟩
  rw [lex, lex, hsingle, hdouble]
  exact ⟨h.1 [97] (by simp) 7 (by decide), h.2 [0xC3, 0xA9, 34] 233 2 (by decide) (by decide)
    (by decide) 0⟩

end StateFunctions

end SpiceDB.Schemadsl
