import ExposureControl.Numeric.Digits

/-!
# TOML lexical elements

Blanks, line ends, comments, keys and strings.  Readers take the characters that are left and give
what they read with the characters after it; none means that the text is not TOML.
-/

namespace ExposureControl.Toml

def isBlank (c : Char) : Bool := c = ' ' || c = '\t'

def skipBlanks (cs : List Char) : List Char := cs.dropWhile isBlank

/-- A character that may stand in a comment: no control character but the tab. -/
def isCommentChar (c : Char) : Bool :=
  c = '\t' || (0x20 ≤ c.toNat && c.toNat ≠ 0x7F)

def readNewline? : List Char → Option (List Char)
  | '\n' :: rest => some rest
  | '\r' :: '\n' :: rest => some rest
  | _ => none

def skipComment : List Char → List Char
  | '#' :: rest => rest.dropWhile isCommentChar
  | cs => cs

/-- Read what may follow an expression on its line: blanks, a comment, and the line break or the
end of the text. -/
def readLineEnd? (cs : List Char) : Option (List Char) :=
  match skipComment (skipBlanks cs) with
  | [] => some []
  | cs => readNewline? cs

/-- Leave out blanks, line breaks and comments that end with a line break. -/
def skipTrivia : (fuel : Nat) → List Char → List Char
  | 0, cs => cs
  | fuel + 1, cs =>
    let cs := skipBlanks cs
    match readNewline? (skipComment cs) with
    | some rest => skipTrivia fuel rest
    | none => cs

/-! ## Strings -/

def readCodePoint? (count : Nat) (cs : List Char) : Option (Char × List Char) := do
  let digits := cs.take count
  let code ← Digits.hexToNat? digits
  if digits.length = count && code.isValidChar then some (Char.ofNat code, cs.drop count)
  else none

def readEscape? : List Char → Option (Char × List Char)
  | 'b' :: rest => some (Char.ofNat 0x08, rest)
  | 't' :: rest => some ('\t', rest)
  | 'n' :: rest => some ('\n', rest)
  | 'f' :: rest => some (Char.ofNat 0x0C, rest)
  | 'r' :: rest => some ('\r', rest)
  | '"' :: rest => some ('"', rest)
  | '\\' :: rest => some ('\\', rest)
  | 'u' :: rest => readCodePoint? 4 rest
  | 'U' :: rest => readCodePoint? 8 rest
  | _ => none

def readBasic? : (fuel : Nat) → List Char → Option (List Char × List Char)
  | 0, _ => none
  | _, [] => none
  | fuel + 1, c :: rest =>
    if c = '"' then some ([], rest)
    else if c = '\\' then do
      let (escaped, rest) ← readEscape? rest
      let (body, rest) ← readBasic? fuel rest
      return (escaped :: body, rest)
    else if isCommentChar c then do
      let (body, rest) ← readBasic? fuel rest
      return (c :: body, rest)
    else none

def readLiteral? : List Char → Option (List Char × List Char)
  | [] => none
  | c :: rest =>
    if c = '\'' then some ([], rest)
    else if isCommentChar c then do
      let (body, rest) ← readLiteral? rest
      return (c :: body, rest)
    else none

/-- Read the quotes at the front of a multi-line body: three of them close it, and up to two more
before those belong to it.  None if they do not close it. -/
def readClosing? (quote : Char) (cs : List Char) : Option (List Char × List Char) :=
  let run := (cs.takeWhile (· = quote)).length
  if run < 3 then none
  else
    let inside := min (run - 3) 2
    some (List.replicate inside quote, cs.drop (inside + 3))

/-- Leave out lines of blanks, and the blanks that begin the next line. -/
def skipBlankLines : (fuel : Nat) → List Char → List Char
  | 0, cs => cs
  | fuel + 1, cs =>
    match readNewline? (skipBlanks cs) with
    | some rest => skipBlankLines fuel rest
    | none => skipBlanks cs

/-- After a backslash at the end of a line: leave out blanks and line breaks up to the next other
character.  None if the line does not end there. -/
def skipLineFold? (cs : List Char) : Option (List Char) :=
  (readNewline? (skipBlanks cs)).map fun rest => skipBlankLines (rest.length + 1) rest

def readMultiBasic? : (fuel : Nat) → List Char → Option (List Char × List Char)
  | 0, _ => none
  | fuel + 1, cs =>
    match readClosing? '"' cs, cs with
    | some closing, _ => some closing
    | none, [] => none
    | none, '\\' :: rest =>
      match skipLineFold? rest with
      | some rest => readMultiBasic? fuel rest
      | none => do
        let (escaped, rest) ← readEscape? rest
        let (body, rest) ← readMultiBasic? fuel rest
        return (escaped :: body, rest)
    | none, c :: rest =>
      match readNewline? (c :: rest) with
      | some rest => do
        let (body, rest) ← readMultiBasic? fuel rest
        return ('\n' :: body, rest)
      | none =>
        if isCommentChar c then do
          let (body, rest) ← readMultiBasic? fuel rest
          return (c :: body, rest)
        else none

def readMultiLiteral? : (fuel : Nat) → List Char → Option (List Char × List Char)
  | 0, _ => none
  | fuel + 1, cs =>
    match readClosing? '\'' cs, cs with
    | some closing, _ => some closing
    | none, [] => none
    | none, c :: rest =>
      match readNewline? (c :: rest) with
      | some rest => do
        let (body, rest) ← readMultiLiteral? fuel rest
        return ('\n' :: body, rest)
      | none =>
        if isCommentChar c then do
          let (body, rest) ← readMultiLiteral? fuel rest
          return (c :: body, rest)
        else none

/-- Leave out the line break that may follow the opening quotes of a multi-line string. -/
def skipFirstNewline (cs : List Char) : List Char := (readNewline? cs).getD cs

def readString? (cs : List Char) : Option (String × List Char) := do
  let (body, rest) ← match cs with
    | '"' :: '"' :: '"' :: rest => readMultiBasic? (rest.length + 1) (skipFirstNewline rest)
    | '"' :: rest => readBasic? (rest.length + 1) rest
    | '\'' :: '\'' :: '\'' :: rest =>
      readMultiLiteral? (rest.length + 1) (skipFirstNewline rest)
    | '\'' :: rest => readLiteral? rest
    | _ => none
  return (String.ofList body, rest)

/-! ## Keys -/

/-- A character of a key without quotes. -/
def isBareKeyChar (c : Char) : Bool :=
  Digits.isDigit c || ('a' ≤ c && c ≤ 'z') || ('A' ≤ c && c ≤ 'Z') || c = '-' || c = '_'

def readSimpleKey? (cs : List Char) : Option (String × List Char) :=
  match cs with
  | '"' :: rest => do
    let (body, rest) ← readBasic? (rest.length + 1) rest
    return (String.ofList body, rest)
  | '\'' :: rest => do
    let (body, rest) ← readLiteral? rest
    return (String.ofList body, rest)
  | cs =>
    let key := cs.takeWhile isBareKeyChar
    if key.isEmpty then none else some (String.ofList key, cs.drop key.length)

def readKeys? : (fuel : Nat) → List Char → Option (List String × List Char)
  | 0, _ => none
  | fuel + 1, cs => do
    let (key, rest) ← readSimpleKey? (skipBlanks cs)
    match skipBlanks rest with
    | '.' :: rest =>
      let (keys, rest) ← readKeys? fuel rest
      return (key :: keys, rest)
    | rest => return ([key], rest)

/-- The number of keys that may be joined. -/
def maxKeys : Nat := 79

def readPath? (cs : List Char) : Option (List String × List Char) := readKeys? maxKeys cs

end ExposureControl.Toml
