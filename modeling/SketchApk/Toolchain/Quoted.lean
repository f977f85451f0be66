/-!
# Quoted strings of toolchain descriptions

A description is written in TOML, which has four forms of strings. A *basic* string stands between
double quotes and has escapes; a *literal* string stands between single quotes and has none. Both
have multi-line forms between three quotes, whose first line break is dropped if it follows the
opening quotes at once. In a multi-line basic string a backslash at the end of a line joins it to
the next text. Control characters other than the tab and line breaks may not occur.

Each reader takes the text behind the opening quotes and gives the string and the text behind the
closing quotes.
-/

namespace SketchApk.Description

/-- A character that may stand in a string or a comment: a tab or no control character. -/
def isPlain (c : Char) : Bool :=
  c = '\t' || (0x20 ≤ c.toNat && c.toNat ≠ 0x7f)

/-- The character of a letter behind a backslash. -/
def escapeLetter? (c : Char) : Option Char :=
  match c with
  | 'b' => some '\x08'
  | 't' => some '\t'
  | 'n' => some '\n'
  | 'f' => some '\x0c'
  | 'r' => some '\r'
  | '"' => some '"'
  | '\\' => some '\\'
  | _ => none

/-- The value of a hexadecimal digit. -/
def hexDigit? (c : Char) : Option Nat :=
  if '0' ≤ c ∧ c ≤ '9' then some (c.toNat - 0x30)
  else if 'a' ≤ c ∧ c ≤ 'f' then some (c.toNat - 0x61 + 10)
  else if 'A' ≤ c ∧ c ≤ 'F' then some (c.toNat - 0x41 + 10)
  else none

/-- The character whose code point is written by hexadecimal digits. -/
def codePoint? (digits : List Char) : Option Char := do
  let values ← digits.mapM hexDigit?
  let code := values.foldl (fun n digit => 16 * n + digit) 0
  if h : code.isValidChar then some (Char.ofNatAux code h) else none

/-- A character in front of the string that has been read behind it. -/
def prepend (c : Char) (read : Option (List Char × List Char)) : Option (List Char × List Char) :=
  read.map fun (text, rest) => (c :: text, rest)

/-- A character that may be missing, in front of the string that has been read behind it. -/
def prepend? (c : Option Char) (read : Option (List Char × List Char)) :
    Option (List Char × List Char) :=
  c.bind fun c => prepend c read

/-- A basic string. -/
def basic? : List Char → Option (List Char × List Char)
  | [] => none
  | '"' :: rest => some ([], rest)
  | '\\' :: 'u' :: a :: b :: c :: d :: rest => prepend? (codePoint? [a, b, c, d]) (basic? rest)
  | '\\' :: 'U' :: a :: b :: c :: d :: e :: f :: g :: h :: rest =>
    prepend? (codePoint? [a, b, c, d, e, f, g, h]) (basic? rest)
  | '\\' :: c :: rest => prepend? (escapeLetter? c) (basic? rest)
  | c :: rest => if isPlain c && c != '\\' then prepend c (basic? rest) else none

/-- A literal string. -/
def literal? : List Char → Option (List Char × List Char)
  | [] => none
  | '\'' :: rest => some ([], rest)
  | c :: rest => if isPlain c then prepend c (literal? rest) else none

/-- The end of a multi-line string behind its first three closing quotes. Up to two of the quotes
that follow belong to the string, and the closing quotes stand behind them. -/
def closing (quote : Char) (rest : List Char) : List Char × List Char :=
  let more := rest.take 2 |>.takeWhile (· = quote)
  (more, rest.drop more.length)

/-- The text behind blanks that end a line begins with a line break. -/
def isLineEnd (text : List Char) : Bool :=
  match text.dropWhile fun c => c = ' ' || c = '\t' with
  | '\n' :: _ => true
  | '\r' :: '\n' :: _ => true
  | _ => false

/-- A multi-line basic string. The flag tells that blanks and line breaks are being skipped. -/
def multiLineBasic? : (skipping : Bool) → List Char → Option (List Char × List Char)
  | _, [] => none
  | _, '"' :: '"' :: '"' :: rest => some (closing '"' rest)
  | skipping, '\r' :: '\n' :: rest =>
    if skipping then multiLineBasic? true rest else prepend '\n' (multiLineBasic? false rest)
  | skipping, '\n' :: rest =>
    if skipping then multiLineBasic? true rest else prepend '\n' (multiLineBasic? false rest)
  | _, '\\' :: 'u' :: a :: b :: c :: d :: rest =>
    prepend? (codePoint? [a, b, c, d]) (multiLineBasic? false rest)
  | _, '\\' :: 'U' :: a :: b :: c :: d :: e :: f :: g :: h :: rest =>
    prepend? (codePoint? [a, b, c, d, e, f, g, h]) (multiLineBasic? false rest)
  | _, '\\' :: c :: rest =>
    if isLineEnd (c :: rest) then multiLineBasic? true (c :: rest)
    else prepend? (escapeLetter? c) (multiLineBasic? false rest)
  | skipping, c :: rest =>
    if skipping && (c = ' ' || c = '\t') then multiLineBasic? true rest
    else if isPlain c && c != '\\' then prepend c (multiLineBasic? false rest)
    else none

/-- A multi-line literal string. -/
def multiLineLiteral? : List Char → Option (List Char × List Char)
  | [] => none
  | '\'' :: '\'' :: '\'' :: rest => some (closing '\'' rest)
  | '\r' :: '\n' :: rest => prepend '\n' (multiLineLiteral? rest)
  | c :: rest => if isPlain c || c = '\n' then prepend c (multiLineLiteral? rest) else none

/-- The text without a line break in front. -/
def dropLineBreak : List Char → List Char
  | '\n' :: rest => rest
  | '\r' :: '\n' :: rest => rest
  | text => text

/-- A string of any form, with its opening quotes. -/
def string? : List Char → Option (List Char × List Char)
  | '"' :: '"' :: '"' :: rest => multiLineBasic? false (dropLineBreak rest)
  | '\'' :: '\'' :: '\'' :: rest => multiLineLiteral? (dropLineBreak rest)
  | '"' :: rest => basic? rest
  | '\'' :: rest => literal? rest
  | _ => none

end SketchApk.Description
