import DocStore.Json.Number

/-!
# Writing JSON text

`Json.render` writes a value on one line with no blanks; `Json.renderPretty` writes one item or
member per line, indented by two spaces a level, with `": "` after a name, and empty arrays and
objects as `[]` and `{}`. Members are written in the order of their list.

A string is written between quotes: a quote and a backslash get a backslash, the control
characters backspace, form feed, line feed, carriage return and tab get their letter escapes,
the other control characters a `\u00xx` escape in lower-case hexadecimal, and every other
character stands for itself.
-/

namespace DocStore.Json

/-- A lower-case hexadecimal digit. -/
def hexDigit (n : Nat) : Char :=
  if n < 10 then Char.ofNat (48 + n) else Char.ofNat (87 + n)

/-- The written form of one character inside a string. -/
def escapeChar (c : Char) : List Char :=
  if c = '"' then ['\\', '"']
  else if c = '\\' then ['\\', '\\']
  else if c = '\n' then ['\\', 'n']
  else if c = '\r' then ['\\', 'r']
  else if c = '\t' then ['\\', 't']
  else if c.toNat = 8 then ['\\', 'b']
  else if c.toNat = 12 then ['\\', 'f']
  else if c.toNat < 0x20 then ['\\', 'u', '0', '0', hexDigit (c.toNat / 16), hexDigit (c.toNat % 16)]
  else [c]

/-- A string between quotes, its characters escaped. -/
def quote (s : String) : String :=
  String.ofList ('"' :: s.toList.flatMap escapeChar ++ ['"'])

mutual

/-- The one-line text of a value. -/
def render : Json → String
  | .null => "null"
  | .bool true => "true"
  | .bool false => "false"
  | .num n => n.render
  | .str s => quote s
  | .arr items => "[" ++ renderItems items ++ "]"
  | .obj ms => "\x7b" ++ renderMembers ms ++ "\x7d"

/-- Items separated by commas. -/
def renderItems : List Json → String
  | [] => ""
  | [v] => render v
  | v :: vs => render v ++ "," ++ renderItems vs

/-- Members separated by commas, each a quoted name, a colon and the value. -/
def renderMembers : Members → String
  | [] => ""
  | [(k, v)] => quote k ++ ":" ++ render v
  | (k, v) :: ms => quote k ++ ":" ++ render v ++ "," ++ renderMembers ms

end

/-- Two spaces for each level. -/
def indentation (level : Nat) : String := String.ofList (List.replicate (2 * level) ' ')

mutual

/-- The text of a value at nesting `level`, one item or member per line. -/
def renderAt (level : Nat) : Json → String
  | .arr [] => "[]"
  | .arr items => "[\n" ++ renderItemsAt (level + 1) items ++ "\n" ++ indentation level ++ "]"
  | .obj [] => "\x7b\x7d"
  | .obj ms => "\x7b\n" ++ renderMembersAt (level + 1) ms ++ "\n" ++ indentation level ++ "\x7d"
  | v => render v

/-- Items at `level`, each on its own line, separated by commas. -/
def renderItemsAt (level : Nat) : List Json → String
  | [] => ""
  | [v] => indentation level ++ renderAt level v
  | v :: vs => indentation level ++ renderAt level v ++ ",\n" ++ renderItemsAt level vs

/-- Members at `level`, each on its own line, separated by commas. -/
def renderMembersAt (level : Nat) : Members → String
  | [] => ""
  | [(k, v)] => indentation level ++ quote k ++ ": " ++ renderAt level v
  | (k, v) :: ms =>
    indentation level ++ quote k ++ ": " ++ renderAt level v ++ ",\n" ++ renderMembersAt level ms

end

/-- The indented text of a value. -/
def renderPretty (v : Json) : String := renderAt 0 v

example : render (.obj [("a", .arr [.num (.int 1), .null]), ("b", .str "x\"\n\u0001")]) =
    "\x7b\"a\":[1,null],\"b\":\"x\\\"\\n\\u0001\"\x7d" := by decide +kernel

example : renderPretty (.obj [("a", .arr []), ("b", .obj [("c", .bool true)])]) =
    "\x7b\n  \"a\": [],\n  \"b\": \x7b\n    \"c\": true\n  \x7d\n\x7d" := by decide +kernel

end DocStore.Json
