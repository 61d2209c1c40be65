import DocStore.Json.Number

/-!
# Reading JSON text

`Json.parseRaw` reads one JSON value from a text, blanks around it allowed, and keeps each
object's members in text order with repeated names. `Json.parse` then gives each object the form
of a sorted map: members by increasing name, the last of a repeated name winning.

Each reader takes the characters left and returns what it read with the characters left after
it, a suffix that is never longer (`Rest`). A value always reads its first character, so the
loops over array items and object members run on strictly shorter suffixes and terminate.

A reading error names its issue and the place it points to: the characters left at that place,
plus the bytes beyond it that the reader had looked at. `ReadError.message` writes it with the
line and the byte column of that place. Nesting deeper than 127 arrays or objects is refused.

`Json.parseSelected` reads an object as `parseRaw` does but only skips over the members it does
not keep: they need only be well formed.
-/

namespace DocStore.Json

/-- What is wrong with a JSON text where a reading error points. -/
inductive Issue
  | eofInList
  | eofInObject
  | eofInString
  | eofInValue
  | expectedColon
  | expectedListCommaOrEnd
  | expectedObjectCommaOrEnd
  | expectedIdent
  | expectedValue
  | invalidEscape
  | invalidNumber
  | numberOutOfRange
  | controlInString
  | keyMustBeString
  | loneLeadingSurrogate
  | trailingComma
  | trailingCharacters
  | unexpectedEndOfHexEscape
  | recursionLimit
  deriving DecidableEq, Repr

/-- The wording of an issue. -/
def Issue.message : Issue → String
  | .eofInList => "EOF while parsing a list"
  | .eofInObject => "EOF while parsing an object"
  | .eofInString => "EOF while parsing a string"
  | .eofInValue => "EOF while parsing a value"
  | .expectedColon => "expected `:`"
  | .expectedListCommaOrEnd => "expected `,` or `]`"
  | .expectedObjectCommaOrEnd => "expected `,` or `\x7d`"
  | .expectedIdent => "expected ident"
  | .expectedValue => "expected value"
  | .invalidEscape => "invalid escape"
  | .invalidNumber => "invalid number"
  | .numberOutOfRange => "number out of range"
  | .controlInString => "control character (\\u0000-\\u001F) found while parsing a string"
  | .keyMustBeString => "key must be a string"
  | .loneLeadingSurrogate => "lone leading surrogate in hex escape"
  | .trailingComma => "trailing comma"
  | .trailingCharacters => "trailing characters"
  | .unexpectedEndOfHexEscape => "unexpected end of hex escape"
  | .recursionLimit => "recursion limit exceeded"

/-- A reading error: the issue, the number of characters left at the place it points to, and
the bytes beyond that place the reader had looked at. -/
structure ReadError where
  issue : Issue
  left : Nat
  extra : Nat
  deriving DecidableEq, Repr

/-- An error at the place before `cs`. -/
def ReadError.at (issue : Issue) (cs : List Char) : ReadError := ⟨issue, cs.length, 0⟩

/-- An error at the character that starts `cs`, once the reader has taken its first byte. -/
def ReadError.ahead (issue : Issue) (cs : List Char) : ReadError :=
  ⟨issue, cs.length, if cs.isEmpty then 0 else 1⟩

/-- The line (from 1) and the byte column (from 0) of the place an error points to. -/
def ReadError.position (e : ReadError) (text : String) : Nat × Nat :=
  let cs := text.toList
  let before := (cs.take (cs.length - e.left)).foldl (fun n c => n + c.utf8Size) 0
  let bytes := text.toUTF8.toList.take (before + e.extra)
  let lineStart := bytes.length - (bytes.reverse.takeWhile (· != 10)).length
  (1 + bytes.count 10, bytes.length - lineStart)

/-- The error as a message: the issue, then its line and column in `text`. -/
def ReadError.message (e : ReadError) (text : String) : String :=
  let (line, column) := e.position text
  e.issue.message ++ " at line " ++ toString line ++ " column " ++ toString column

/-- A suffix of `cs` left after reading from it. -/
abbrev Rest (cs : List Char) := { r : List Char // r.length ≤ cs.length }

/-- A suffix of the tail is a suffix of the whole. -/
def Rest.up {c : Char} {cs : List Char} (r : Rest cs) : Rest (c :: cs) :=
  ⟨r.1, by have := r.2; simp; omega⟩

/-- A list is a suffix of itself. -/
def Rest.whole (cs : List Char) : Rest cs := ⟨cs, Nat.le_refl _⟩

/-- Blanks between tokens: space, line feed, tab and carriage return. -/
def isSpace (c : Char) : Bool := c == ' ' || c == '\n' || c == '\t' || c == '\r'

/-- Drops the blanks at the front. -/
def skipSpace : List Char → List Char
  | [] => []
  | c :: cs => if isSpace c then skipSpace cs else c :: cs

theorem length_skipSpace_le (cs : List Char) : (skipSpace cs).length ≤ cs.length := by
  induction cs with
  | nil => simp [skipSpace]
  | cons c cs ih => unfold skipSpace; split <;> simp; omega

/-- The value of a decimal digit character. -/
def digitValue (c : Char) : Nat := c.toNat - 48

/-- Whether `c` is a decimal digit. -/
def isDigit (c : Char) : Bool := '0' ≤ c && c ≤ '9'

/-- The value of a hexadecimal digit character, either case. -/
def hexValue (c : Char) : Option Nat :=
  if '0' ≤ c ∧ c ≤ '9' then some (c.toNat - 48)
  else if 'a' ≤ c ∧ c ≤ 'f' then some (c.toNat - 87)
  else if 'A' ≤ c ∧ c ≤ 'F' then some (c.toNat - 55)
  else none

/-! ## Literals and numbers -/

/-- Reads the remaining letters of `null`, `true` or `false`. -/
def readWord : List Char → (cs : List Char) → Except ReadError (Rest cs)
  | [], cs => .ok (Rest.whole cs)
  | _ :: _, [] => .error (.at .eofInValue [])
  | w :: ws, c :: cs =>
    if c = w then (readWord ws cs).map Rest.up else .error (.ahead .expectedIdent (c :: cs))

/-- The largest significand the reader accumulates exactly. -/
def maxSignificand : Nat := Nat.pow 2 64 - 1

/-- Whether appending digit `d` to `sig` passes `maxSignificand`. -/
def overflows (sig d : Nat) : Bool :=
  sig ≥ maxSignificand / 10 && (sig > maxSignificand / 10 || d > maxSignificand % 10)

/-- Whether appending digit `d` to the exponent `e` passes the largest 32-bit exponent. -/
def exponentOverflows (e d : Nat) : Bool :=
  e ≥ (Nat.pow 2 31 - 1) / 10 && (e > (Nat.pow 2 31 - 1) / 10 || d > (Nat.pow 2 31 - 1) % 10)

/-- Adds two exponents, staying within the 32-bit range. -/
def clampExponent (e : Int) : Int := max (-(Int.pow 2 31)) (min (Int.pow 2 31 - 1) e)

/-- The float of the parts, or the overflow error at the place before `cs`. -/
def fromParts (positive : Bool) (sig : Nat) (exp : Int) (cs : List Char) :
    Except ReadError (Number × Rest cs) :=
  match Number.ofDecimal positive sig exp with
  | some f => .ok (.float f, Rest.whole cs)
  | none => .error (.at .numberOutOfRange cs)

/-- Skips digits. -/
def skipDigits : (cs : List Char) → Rest cs
  | [] => Rest.whole []
  | c :: cs => if isDigit c then (skipDigits cs).up else Rest.whole (c :: cs)

/-- After an exponent too large to hold: an error for a nonzero significand and a positive
exponent, and otherwise a zero of the number's sign. -/
def exponentOverflow (positive zero positiveExp : Bool) (cs : List Char) :
    Except ReadError (Number × Rest cs) :=
  if !zero && positiveExp then .error (.at .numberOutOfRange cs)
  else .ok (.float (if positive then 0 else -0), skipDigits cs)

/-- Reads the digits of an exponent after its first. -/
def exponentDigits (positive : Bool) (sig : Nat) (start : Int) (positiveExp : Bool) (exp : Nat) :
    (cs : List Char) → Except ReadError (Number × Rest cs)
  | [] => fromParts positive sig (clampExponent (if positiveExp then start + exp else start - exp)) []
  | c :: cs =>
    if isDigit c then
      if exponentOverflows exp (digitValue c) then
        (exponentOverflow positive (sig == 0) positiveExp cs).map fun (n, r) => (n, r.up)
      else
        (exponentDigits positive sig start positiveExp (exp * 10 + digitValue c) cs).map
          fun (n, r) => (n, r.up)
    else
      fromParts positive sig (clampExponent (if positiveExp then start + exp else start - exp))
        (c :: cs)

/-- The sign of an exponent, if written, and what follows it. -/
def exponentSign : (cs : List Char) → Bool × Rest cs
  | '+' :: r => (true, (Rest.whole r).up)
  | '-' :: r => (false, (Rest.whole r).up)
  | cs => (true, Rest.whole cs)

/-- Reads an exponent after its mark `e` or `E`: an optional sign, then digits. -/
def exponentPart (positive : Bool) (sig : Nat) (start : Int) (cs : List Char) :
    Except ReadError (Number × Rest cs) :=
  let (positiveExp, ds) := exponentSign cs
  match h : ds.1 with
  | [] => .error (.at .eofInValue [])
  | d :: r =>
    if isDigit d then
      (exponentDigits positive sig start positiveExp (digitValue d) r).map
        fun (n, x) => (n, ⟨x.1, by have := x.2; have := ds.2; rw [h] at this; simp at this; omega⟩)
    else .error (.ahead .invalidNumber (d :: r))

/-- After a significand too long to hold: skips the remaining fraction digits. -/
def fractionOverflow (positive : Bool) (sig : Nat) (exp : Int) (cs : List Char) :
    Except ReadError (Number × Rest cs) :=
  let r := skipDigits cs
  match h : r.1 with
  | c :: t =>
    if c = 'e' ∨ c = 'E' then
      (exponentPart positive sig exp t).map
        fun (n, x) => (n, ⟨x.1, by have := x.2; have := r.2; rw [h] at this; simp at this; omega⟩)
    else (fromParts positive sig exp r.1).map fun (n, x) => (n, ⟨x.1, by have := x.2; have := r.2; omega⟩)
  | [] => (fromParts positive sig exp []).map fun (n, x) => (n, ⟨x.1, Nat.le_trans x.2 (Nat.zero_le _)⟩)

/-- Reads fraction digits; `count` digits were read so far. -/
def fractionDigits (positive : Bool) (sig : Nat) (start : Int) (count : Nat) :
    (cs : List Char) → Except ReadError (Number × Rest cs)
  | [] =>
    if count = 0 then .error (.ahead .eofInValue [])
    else fromParts positive sig (start - count) []
  | c :: cs =>
    if isDigit c then
      if overflows sig (digitValue c) then fractionOverflow positive sig (start - count) (c :: cs)
      else
        (fractionDigits positive (sig * 10 + digitValue c) start (count + 1) cs).map
          fun (n, r) => (n, r.up)
    else if count = 0 then .error (.ahead .invalidNumber (c :: cs))
    else if c = 'e' ∨ c = 'E' then
      (exponentPart positive sig (start - count) cs).map fun (n, r) => (n, r.up)
    else fromParts positive sig (start - count) (c :: cs)

/-- Digits of an integer part beyond what the significand holds: each one raises the
exponent. -/
def longInteger (positive : Bool) (sig : Nat) (exp : Nat) :
    (cs : List Char) → Except ReadError (Number × Rest cs)
  | [] => fromParts positive sig exp []
  | c :: cs =>
    if isDigit c then (longInteger positive sig (exp + 1) cs).map fun (n, r) => (n, r.up)
    else if c = '.' then (fractionDigits positive sig exp 0 cs).map fun (n, r) => (n, r.up)
    else if c = 'e' ∨ c = 'E' then (exponentPart positive sig exp cs).map fun (n, r) => (n, r.up)
    else fromParts positive sig exp (c :: cs)

/-- What follows a whole significand: a fraction, an exponent, or the end of the number. -/
def afterInteger (positive : Bool) (sig : Nat) : (cs : List Char) → Except ReadError (Number × Rest cs)
  | [] => .ok (Number.ofInteger positive sig, Rest.whole [])
  | c :: cs =>
    if c = '.' then (fractionDigits positive sig 0 0 cs).map fun (n, r) => (n, r.up)
    else if c = 'e' ∨ c = 'E' then (exponentPart positive sig 0 cs).map fun (n, r) => (n, r.up)
    else .ok (Number.ofInteger positive sig, Rest.whole (c :: cs))

/-- Reads the digits of an integer part after its first, nonzero, digit. -/
def integerDigits (positive : Bool) (sig : Nat) : (cs : List Char) → Except ReadError (Number × Rest cs)
  | [] => afterInteger positive sig []
  | c :: cs =>
    if isDigit c then
      if overflows sig (digitValue c) then longInteger positive sig 0 (c :: cs)
      else (integerDigits positive (sig * 10 + digitValue c) cs).map fun (n, r) => (n, r.up)
    else afterInteger positive sig (c :: cs)

/-- Reads a number whose first digit `c` was just read (after the minus sign of a negative
one). A leading zero stands alone. -/
def readNumber (positive : Bool) (c : Char) (cs : List Char) : Except ReadError (Number × Rest cs) :=
  if c = '0' then
    match cs with
    | d :: t =>
      if isDigit d then .error (.ahead .invalidNumber (d :: t)) else afterInteger positive 0 (d :: t)
    | [] => .ok (Number.ofInteger positive 0, Rest.whole [])
  else if isDigit c then integerDigits positive (digitValue c) cs
  else .error (.ahead .invalidNumber (c :: cs))

/-! ## Strings -/

/-- Whether at least four bytes are left. -/
def hasFourBytes (cs : List Char) : Bool :=
  (cs.take 4).foldl (fun n c => n + c.utf8Size) 0 ≥ 4

/-- Reads four hexadecimal digits of a `\u` escape. The reader takes four bytes at once:
fewer than four left is an unfinished string, and four that are not all hexadecimal digits an
invalid escape after them. -/
def readHex4 (cs : List Char) : Except ReadError (Nat × Rest cs) :=
  match cs with
  | a :: b :: c :: d :: r =>
    match hexValue a, hexValue b, hexValue c, hexValue d with
    | some x, some y, some z, some w => .ok (((x * 16 + y) * 16 + z) * 16 + w, ⟨r, by simp; omega⟩)
    | _, _, _, _ => .error ⟨.invalidEscape, cs.length, 4⟩
  | _ => if hasFourBytes cs then .error ⟨.invalidEscape, cs.length, 4⟩ else .error (.at .eofInString [])

/-- The character of a one-letter escape. -/
def simpleEscape (c : Char) : Option Char :=
  if c = '"' then some '"'
  else if c = '\\' then some '\\'
  else if c = '/' then some '/'
  else if c = 'b' then some (Char.ofNat 8)
  else if c = 'f' then some (Char.ofNat 12)
  else if c = 'n' then some '\n'
  else if c = 'r' then some '\r'
  else if c = 't' then some '\t'
  else none

/-- Reads the rest of a `\u` escape (after `\u`): a character outside the surrogates, or a
leading surrogate followed by `\u` and a trailing one. -/
def readUnicode (cs : List Char) : Except ReadError (Char × Rest cs) :=
  match readHex4 cs with
  | .error e => .error e
  | .ok (n, r) =>
    if 0xDC00 ≤ n ∧ n ≤ 0xDFFF then .error (.at .loneLeadingSurrogate r.1)
    else if n < 0xD800 ∨ 0xDBFF < n then .ok (Char.ofNat n, r)
    else
      match h : r.1 with
      | [] => .error (.at .eofInString [])
      | c :: t =>
        if c ≠ '\\' then .error (.ahead .unexpectedEndOfHexEscape (c :: t))
        else
          match t with
          | [] => .error (.at .eofInString [])
          | u :: t' =>
            if u ≠ 'u' then .error (.ahead .unexpectedEndOfHexEscape (u :: t'))
            else
              match readHex4 t' with
              | .error e => .error e
              | .ok (m, r') =>
                if m < 0xDC00 ∨ 0xDFFF < m then .error (.at .loneLeadingSurrogate r'.1)
                else
                  .ok (Char.ofNat (((n - 0xD800) * 1024 + (m - 0xDC00)) + 0x10000),
                    ⟨r'.1, by have := r'.2; have := r.2; rw [h] at this; simp at this; omega⟩)

/-- Reads string characters up to the closing quote; `acc` holds those read, last first. -/
def readChars (acc : List Char) : (cs : List Char) → Except ReadError (String × Rest cs)
  | [] => .error (.at .eofInString [])
  | c :: cs =>
    if c = '"' then .ok (String.ofList acc.reverse, Rest.whole cs |>.up)
    else if c = '\\' then
      match cs with
      | [] => .error (.at .eofInString [])
      | e :: r =>
        if e = 'u' then
          match readUnicode r with
          | .error err => .error err
          | .ok (ch, r') =>
            (readChars (ch :: acc) r'.1).map
              fun (s, x) => (s, ⟨x.1, by
                have := x.2; have := r'.2; simp only [List.length_cons] at *; omega⟩)
        else
          match simpleEscape e with
          | some ch => (readChars (ch :: acc) r).map fun (s, x) => (s, x.up.up)
          | none => .error (.ahead .invalidEscape (e :: r))
    else if c.toNat < 0x20 then .error (.at .controlInString cs)
    else (readChars (c :: acc) cs).map fun (s, x) => (s, x.up)
termination_by cs => cs.length
decreasing_by all_goals (simp only [List.length_cons]; omega)

/-! ## Values -/

/-- The place of a value read: the rest is strictly shorter than the text it was read from. -/
abbrev After (cs : List Char) := { r : List Char // r.length < cs.length }

mutual

/-- Reads one value, blanks before it allowed. `depth` is the nesting still allowed, plus one. -/
def readValue (depth : Nat) (cs : List Char) : Except ReadError (Json × After cs) :=
  match h : skipSpace cs with
  | [] => .error (.at .eofInValue [])
  | c :: r =>
    have hr : r.length < cs.length := by
      have := length_skipSpace_le cs; rw [h] at this; simp at this; omega
    let lift {α : Type} (x : Except ReadError (α × Rest r)) : Except ReadError (α × After cs) :=
      x.map fun (a, s) => (a, ⟨s.1, by have := s.2; omega⟩)
    if c = 'n' then lift ((readWord "ull".toList r).map fun s => (Json.null, s))
    else if c = 't' then lift ((readWord "rue".toList r).map fun s => (Json.bool true, s))
    else if c = 'f' then lift ((readWord "alse".toList r).map fun s => (Json.bool false, s))
    else if c = '-' then
      match hm : r with
      | [] => .error (.at .eofInValue [])
      | d :: t =>
        (readNumber false d t).map fun (n, s) => (Json.num n, ⟨s.1, by
          have := s.2; simp only [List.length_cons] at *; omega⟩)
    else if isDigit c then lift ((readNumber true c r).map fun (n, s) => (Json.num n, s))
    else if c = '"' then lift ((readChars [] r).map fun (s, x) => (Json.str s, x))
    else if c = '[' then
      if depth ≤ 1 then .error (.ahead .recursionLimit (c :: r))
      else
        match readItems (depth - 1) true [] r with
        | .error e => .error e
        | .ok (items, s) => .ok (.arr items, ⟨s.1, by have := s.2; omega⟩)
    else if c = '{' then
      if depth ≤ 1 then .error (.ahead .recursionLimit (c :: r))
      else
        match readMembers (depth - 1) true [] r with
        | .error e => .error e
        | .ok (ms, s) => .ok (.obj ms, ⟨s.1, by have := s.2; omega⟩)
    else .error (.ahead .expectedValue (c :: r))
termination_by (cs.length, 0)

/-- Reads array items up to and including the closing bracket; `acc` holds those read, last
first. -/
def readItems (depth : Nat) (first : Bool) (acc : List Json) (cs : List Char) :
    Except ReadError (List Json × Rest cs) :=
  match h : skipSpace cs with
  | [] => .error (.at .eofInList [])
  | c :: r =>
    have hw : (c :: r).length ≤ cs.length := by rw [← h]; exact length_skipSpace_le cs
    if c = ']' then .ok (acc.reverse, ⟨r, by simp only [List.length_cons] at hw; omega⟩)
    else if first then
      match readValue depth (c :: r) with
      | .error e => .error e
      | .ok (v, s) =>
        have hs := s.2
        (readItems depth false (v :: acc) s.1).map fun (vs, x) => (vs, ⟨x.1, by
          have := x.2; simp only [List.length_cons] at *; omega⟩)
    else if c = ',' then
      match h2 : skipSpace r with
      | [] => .error (.at .eofInValue [])
      | d :: t =>
        if d = ']' then .error (.ahead .trailingComma (d :: t))
        else
          have hw2 : (d :: t).length ≤ r.length := by rw [← h2]; exact length_skipSpace_le r
          match readValue depth (d :: t) with
          | .error e => .error e
          | .ok (v, s) =>
            have hs := s.2
            (readItems depth false (v :: acc) s.1).map fun (vs, x) => (vs, ⟨x.1, by
              have := x.2; simp only [List.length_cons] at *; omega⟩)
    else .error (.ahead .expectedListCommaOrEnd (c :: r))
termination_by (cs.length, 1)
decreasing_by all_goals (simp only [Prod.lex_def, List.length_cons] at *; omega)

/-- Reads object members up to and including the closing brace, in text order; `acc` holds
those read, last first. -/
def readMembers (depth : Nat) (first : Bool) (acc : Members) (cs : List Char) :
    Except ReadError (Members × Rest cs) :=
  match h : skipSpace cs with
  | [] => .error (.at .eofInObject [])
  | c :: r =>
    have hw : (c :: r).length ≤ cs.length := by rw [← h]; exact length_skipSpace_le cs
    if c = '}' then .ok (acc.reverse, ⟨r, by simp at hw; omega⟩)
    else
      let keyAt : Except ReadError (Rest cs) :=
        if c = ',' ∧ !first then .ok ⟨skipSpace r, by
          have := length_skipSpace_le r; simp at hw; omega⟩
        else if first then .ok ⟨c :: r, hw⟩
        else .error (.ahead .expectedObjectCommaOrEnd (c :: r))
      match keyAt with
      | .error e => .error e
      | .ok k =>
        match hk : k.1 with
        | [] => .error (.at .eofInValue [])
        | q :: t =>
          if q = '}' then .error (.ahead .trailingComma (q :: t))
          else if q ≠ '"' then .error (.ahead .keyMustBeString (q :: t))
          else
            match readChars [] t with
            | .error e => .error e
            | .ok (name, s) =>
              match h3 : skipSpace s.1 with
              | [] => .error (.at .eofInObject [])
              | d :: u =>
                if d ≠ ':' then .error (.ahead .expectedColon (d :: u))
                else
                  have hu : u.length < cs.length := by
                    have h1 := k.2; have h2 := s.2; have h4 := length_skipSpace_le s.1
                    rw [hk] at h1; rw [h3] at h4; simp only [List.length_cons] at *; omega
                  match readValue depth u with
                  | .error e => .error e
                  | .ok (v, x) =>
                    have hx := x.2
                    (readMembers depth false ((name, v) :: acc) x.1).map fun (ms, y) => (ms, ⟨y.1, by
                      have := y.2; omega⟩)
termination_by (cs.length, 1)
decreasing_by all_goals (simp only [Prod.lex_def] at *; omega)

end

/-! ## Normal form -/

mutual

/-- Gives every object of a value the form of a sorted map: members by increasing name, the
last of a repeated name winning. -/
def normalize : Json → Json
  | .arr items => .arr (normalizeItems items)
  | .obj ms => .obj (Members.ofList (normalizeMembers ms))
  | v => v

/-- `normalize` on each item. -/
def normalizeItems : List Json → List Json
  | [] => []
  | v :: vs => normalize v :: normalizeItems vs

/-- `normalize` on each member's value. -/
def normalizeMembers : Members → Members
  | [] => []
  | (k, v) :: ms => (k, normalize v) :: normalizeMembers ms

end

/-- Reads a JSON text as written: objects keep their members in text order, repeated names
included. Blanks may surround the value; anything else after it is an error. -/
def parseRaw (text : String) : Except ReadError Json :=
  match readValue 128 text.toList with
  | .error e => .error e
  | .ok (v, r) =>
    match skipSpace r.1 with
    | [] => .ok v
    | rest => .error (.ahead .trailingCharacters rest)

/-- Reads a JSON text into a value whose objects are sorted maps. -/
def parse (text : String) : Except ReadError Json :=
  (parseRaw text).map normalize

end DocStore.Json

/-!
## Skipping JSON values, and reading chosen members

A value whose meaning is not wanted is passed over by its syntax alone. The syntax is that of
`readValue`, with three freedoms: a number may be of any size, a `\u` escape may name any
code (a lone surrogate included), and nesting may be of any depth.

`parseSelected keep` reads a text as `parseRaw` does, except that the members of its outer
object whose names `keep` refuses are skipped this way and left out. Records are read so: the
fields they know are read in full, and any other member only has to be well formed.
-/

namespace DocStore.Json

/-- Skips the sign and digits of an exponent: at least one digit. -/
def skipExponent (cs : List Char) : Option (Rest cs) :=
  let signed := exponentSign cs
  match h : signed.2.1 with
  | d :: t =>
    if isDigit d then
      some ⟨(skipDigits t).1, by
        have := (skipDigits t).2; have := signed.2.2; rw [h] at this; simp at this; omega⟩
    else none
  | [] => none

/-- Skips an optional exponent: `e` or `E`, then its sign and digits. -/
def skipExponentPart : (cs : List Char) → Option (Rest cs)
  | c :: r => if c = 'e' ∨ c = 'E' then (skipExponent r).map Rest.up else some (Rest.whole (c :: r))
  | [] => some (Rest.whole [])

/-- Skips an optional fraction, a point and at least one digit, then an optional exponent. -/
def skipFraction : (cs : List Char) → Option (Rest cs)
  | c :: r =>
    if c = '.' then
      match r with
      | d :: t =>
        if isDigit d then
          (skipExponentPart (skipDigits t).1).map fun x => ⟨x.1, by
            have := x.2; have := (skipDigits t).2; simp only [List.length_cons]; omega⟩
        else none
      | [] => none
    else skipExponentPart (c :: r)
  | [] => some (Rest.whole [])

/-- Skips a number after its sign: a lone zero or digits that do not start with zero, then a
fraction and an exponent. -/
def skipNumber : (cs : List Char) → Option (After cs)
  | c :: r =>
    if c = '0' then
      match r with
      | d :: t =>
        if isDigit d then none
        else (skipFraction (d :: t)).map fun x => ⟨x.1, by have := x.2; simp only [List.length_cons] at *; omega⟩
      | [] => some ⟨[], by simp⟩
    else if isDigit c then
      (skipFraction (skipDigits r).1).map fun x => ⟨x.1, by
        have := x.2; have := (skipDigits r).2; simp only [List.length_cons]; omega⟩
    else none
  | [] => none

/-- Skips string characters up to and including the closing quote. -/
def skipChars : (cs : List Char) → Option (Rest cs)
  | [] => none
  | c :: cs =>
    if c = '"' then some (Rest.whole cs).up
    else if c = '\\' then
      match cs with
      | e :: r =>
        if e = 'u' then
          match r with
          | a :: b :: x :: y :: t =>
            if (hexValue a).isSome && (hexValue b).isSome && (hexValue x).isSome &&
                (hexValue y).isSome then
              (skipChars t).map fun s => ⟨s.1, by have := s.2; simp only [List.length_cons]; omega⟩
            else none
          | _ => none
        else if (simpleEscape e).isSome then (skipChars r).map fun s => s.up.up
        else none
      | [] => none
    else if c.toNat < 0x20 then none
    else (skipChars cs).map Rest.up
termination_by cs => cs.length

mutual

/-- Skips one value, blanks before it allowed. -/
def skipValue (cs : List Char) : Option (After cs) :=
  match h : skipSpace cs with
  | [] => none
  | c :: r =>
    have hr : r.length < cs.length := by
      have := length_skipSpace_le cs; rw [h] at this; simp at this; omega
    let lift (x : Option (Rest r)) : Option (After cs) :=
      x.map fun s => ⟨s.1, by have := s.2; omega⟩
    if c = 'n' then lift (readWord "ull".toList r).toOption
    else if c = 't' then lift (readWord "rue".toList r).toOption
    else if c = 'f' then lift (readWord "alse".toList r).toOption
    else if c = '-' then (skipNumber r).map fun s => ⟨s.1, by have := s.2; omega⟩
    else if isDigit c then
      (skipNumber (c :: r)).map fun s => ⟨s.1, by have := s.2; simp only [List.length_cons] at *; omega⟩
    else if c = '"' then lift (skipChars r)
    else if c = '[' then lift (skipItems true r)
    else if c = '{' then lift (skipMembers true r)
    else none
termination_by (cs.length, 0)

/-- Skips array items up to and including the closing bracket. -/
def skipItems (first : Bool) (cs : List Char) : Option (Rest cs) :=
  match h : skipSpace cs with
  | [] => none
  | c :: r =>
    have hw : (c :: r).length ≤ cs.length := by rw [← h]; exact length_skipSpace_le cs
    if c = ']' then some ⟨r, by simp only [List.length_cons] at hw; omega⟩
    else if first then
      match skipValue (c :: r) with
      | none => none
      | some s =>
        have hs := s.2
        (skipItems false s.1).map fun x => ⟨x.1, by
          have := x.2; simp only [List.length_cons] at *; omega⟩
    else if c = ',' then
      match skipValue r with
      | none => none
      | some s =>
        have hs := s.2
        (skipItems false s.1).map fun x => ⟨x.1, by
          have := x.2; simp only [List.length_cons] at *; omega⟩
    else none
termination_by (cs.length, 1)
decreasing_by all_goals (simp only [Prod.lex_def, List.length_cons] at *; omega)

/-- Skips object members up to and including the closing brace. -/
def skipMembers (first : Bool) (cs : List Char) : Option (Rest cs) :=
  match h : skipSpace cs with
  | [] => none
  | c :: r =>
    have hw : (c :: r).length ≤ cs.length := by rw [← h]; exact length_skipSpace_le cs
    if c = '}' then some ⟨r, by simp at hw; omega⟩
    else
      let keyAt : Option (Rest cs) :=
        if c = ',' ∧ !first then some ⟨skipSpace r, by
          have := length_skipSpace_le r; simp at hw; omega⟩
        else if first then some ⟨c :: r, hw⟩
        else none
      match keyAt with
      | none => none
      | some k =>
        match hk : k.1 with
        | q :: t =>
          if q ≠ '"' then none
          else
            match skipChars t with
            | none => none
            | some s =>
              match h3 : skipSpace s.1 with
              | d :: u =>
                if d ≠ ':' then none
                else
                  have hu : u.length < cs.length := by
                    have h1 := k.2; have h2 := s.2; have h4 := length_skipSpace_le s.1
                    rw [hk] at h1; rw [h3] at h4; simp only [List.length_cons] at *; omega
                  match skipValue u with
                  | none => none
                  | some x =>
                    have hx := x.2
                    (skipMembers false x.1).map fun y => ⟨y.1, by have := y.2; omega⟩
              | [] => none
        | [] => none
termination_by (cs.length, 1)
decreasing_by all_goals (simp only [Prod.lex_def] at *; omega)

end

/-- Reads object members up to and including the closing brace, in text order: names in full,
the values of names that `keep` accepts in full at nesting `depth`, and the others skipped and
left out. `acc` holds the members kept so far, last first. -/
def readSelected (keep : String → Bool) (depth : Nat) (first : Bool) (acc : Members)
    (cs : List Char) : Option (Members × Rest cs) :=
  match h : skipSpace cs with
  | [] => none
  | c :: r =>
    have hw : (c :: r).length ≤ cs.length := by rw [← h]; exact length_skipSpace_le cs
    if c = '}' then some (acc.reverse, ⟨r, by simp at hw; omega⟩)
    else
      let keyAt : Option (Rest cs) :=
        if c = ',' ∧ !first then some ⟨skipSpace r, by
          have := length_skipSpace_le r; simp at hw; omega⟩
        else if first then some ⟨c :: r, hw⟩
        else none
      match keyAt with
      | none => none
      | some k =>
        match hk : k.1 with
        | q :: t =>
          if q ≠ '"' then none
          else
            match readChars [] t with
            | .error _ => none
            | .ok (name, s) =>
              match h3 : skipSpace s.1 with
              | d :: u =>
                if d ≠ ':' then none
                else
                  have hu : u.length < cs.length := by
                    have h1 := k.2; have h2 := s.2; have h4 := length_skipSpace_le s.1
                    rw [hk] at h1; rw [h3] at h4; simp only [List.length_cons] at *; omega
                  let value : Option (Option Json × After u) :=
                    if keep name then (readValue depth u).toOption.map fun (v, x) => (some v, x)
                    else (skipValue u).map fun x => (none, x)
                  match value with
                  | none => none
                  | some (v, x) =>
                    have hx := x.2
                    let acc := match v with
                      | some v => (name, v) :: acc
                      | none => acc
                    (readSelected keep depth false acc x.1).map fun (ms, y) =>
                      (ms, ⟨y.1, by have := y.2; omega⟩)
              | [] => none
        | [] => none
termination_by cs.length

/-- Reads a JSON text as `parseRaw` does, except that the members of its outer object whose
names `keep` refuses are skipped and left out. -/
def parseSelected (keep : String → Bool) (text : String) : Option Json :=
  match skipSpace text.toList with
  | '{' :: r =>
    match readSelected keep 127 true [] r with
    | some (ms, rest) => if (skipSpace rest.1).isEmpty then some (.obj ms) else none
    | none => none
  | _ => (parseRaw text).toOption

example : (parseSelected (· == "a") "\x7b\"a\": 1, \"b\": 1e999, \"c\": \"\\ud800\"\x7d").isSome := by
  cbv
example : (parseSelected (· == "b") "\x7b\"a\": 1, \"b\": \"\\ud800\"\x7d").isNone := by cbv
example : (parseSelected (· == "a") "\x7b\"a\": 1, \"b\": [1,]\x7d").isNone := by cbv

end DocStore.Json
