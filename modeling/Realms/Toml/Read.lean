import Realms.Toml.Basic

/-!
Reading configuration texts. A line holds a heading, or a key and its item; comments run to the end of
their line.
-/
namespace Realms.Toml

structure Read (α : Type) where
  value : α
  rest : List Char

def isBlank (c : Char) : Bool := c == ' ' || c == '\t'

def skipBlanks (cs : List Char) : List Char := cs.dropWhile isBlank

/-- A character that a comment or a text between quotes may hold as it is. -/
def isPlain (c : Char) : Bool := c == '\t' || 32 ≤ c.toNat && c.toNat != 127

def isCommentPart (c : Char) : Bool := c == '\t' || 32 ≤ c.toNat

def lineEnd? : List Char → Option (List Char)
  | '\n' :: rest => some rest
  | '\r' :: '\n' :: rest => some rest
  | _ => none

def skipComment (cs : List Char) : List Char :=
  match cs with
  | '#' :: rest => rest.dropWhile isCommentPart
  | _ => cs

/-- The end of a line or of the text, behind blanks and a comment. -/
def endOfLine? (cs : List Char) : Option (List Char) :=
  match skipComment (skipBlanks cs) with
  | [] => some []
  | rest => lineEnd? rest

def skipLines : Nat → List Char → List Char
  | 0, cs => cs
  | rounds + 1, cs =>
    let rest := skipComment (skipBlanks cs)
    match lineEnd? rest with
    | some rest => skipLines rounds rest
    | none => rest

def hexValue? (c : Char) : Option Nat :=
  if c.isDigit then some (c.toNat - 48)
  else if 'a' ≤ c && c ≤ 'f' then some (c.toNat - 87)
  else if 'A' ≤ c && c ≤ 'F' then some (c.toNat - 55)
  else none

def hexChar? (count : Nat) (cs : List Char) : Option (Read Char) := do
  let digits ← (cs.take count).mapM hexValue?
  if digits.length < count then none
  else
    let n := digits.foldl (fun n d => n * 16 + d) 0
    if h : n.isValidChar then some ⟨Char.ofNatAux n h, cs.drop count⟩ else none

def escape? : List Char → Option (Read Char)
  | 'b' :: rest => some ⟨'\x08', rest⟩
  | 't' :: rest => some ⟨'\t', rest⟩
  | 'n' :: rest => some ⟨'\n', rest⟩
  | 'f' :: rest => some ⟨'\x0c', rest⟩
  | 'r' :: rest => some ⟨'\r', rest⟩
  | '"' :: rest => some ⟨'"', rest⟩
  | '\\' :: rest => some ⟨'\\', rest⟩
  | 'u' :: rest => hexChar? 4 rest
  | 'U' :: rest => hexChar? 8 rest
  | _ => none

def readBasic : Nat → List Char → List Char → Option (Read (List Char))
  | 0, _, _ => none
  | _, _, [] => none
  | _ + 1, found, '"' :: rest => some ⟨found, rest⟩
  | rounds + 1, found, '\\' :: rest => do
    let char ← escape? rest
    readBasic rounds (char.value :: found) char.rest
  | rounds + 1, found, c :: rest => if isPlain c then readBasic rounds (c :: found) rest else none

def readLiteral (cs : List Char) : Option (Read (List Char)) :=
  match cs.dropWhile fun c => isPlain c && c != '\x27' with
  | '\x27' :: rest => some ⟨cs.takeWhile fun c => isPlain c && c != '\x27', rest⟩
  | _ => none

def quotesHere (quote : Char) (cs : List Char) : Nat := (cs.takeWhile (· == quote)).length

/-- A text over lines up to three quotes, reversed so far. One or two quotes may stand anywhere in it,
also right before its end. `escapes` says whether a backslash means something; at the end of a line it
joins the next lines. -/
def readLines (quote : Char) (escapes : Bool) :
    Nat → List Char → List Char → Option (Read (List Char))
  | 0, _, _ => none
  | _, _, [] => none
  | rounds + 1, found, c :: rest =>
    let quotes := quotesHere quote (c :: rest)
    if 3 ≤ quotes then
      if 5 < quotes then none
      else some ⟨List.replicate (quotes - 3) quote ++ found, (c :: rest).drop quotes⟩
    else if escapes && c == '\\' then
      match lineEnd? (skipBlanks rest) with
      | some more => readLines quote escapes rounds found (skipSpace more.length more)
      | none => do
        let char ← escape? rest
        readLines quote escapes rounds (char.value :: found) char.rest
    else
      match lineEnd? (c :: rest) with
      | some more => readLines quote escapes rounds ('\n' :: found) more
      | none => if isPlain c then readLines quote escapes rounds (c :: found) rest else none
where
  skipSpace : Nat → List Char → List Char
    | 0, cs => cs
    | rounds + 1, cs =>
      match lineEnd? (skipBlanks cs) with
      | some more => skipSpace rounds more
      | none => skipBlanks cs

/-- The text behind three quotes; a line that ends right there does not count. -/
def readLong (quote : Char) (escapes : Bool) (cs : List Char) : Option (Read String) := do
  let cs := (lineEnd? cs).getD cs
  let found ← readLines quote escapes (cs.length + 1) [] cs
  return ⟨String.ofList found.value.reverse, found.rest⟩

def readShort (cs : List Char) : Option (Read String) :=
  match cs with
  | '"' :: rest => do
    let found ← readBasic (rest.length + 1) [] rest
    return ⟨String.ofList found.value.reverse, found.rest⟩
  | '\x27' :: rest => do
    let found ← readLiteral rest
    return ⟨String.ofList found.value, found.rest⟩
  | _ => none

def readText (cs : List Char) : Option (Read String) :=
  match cs with
  | '"' :: '"' :: '"' :: rest => readLong '"' true rest
  | '\x27' :: '\x27' :: '\x27' :: rest => readLong '\x27' false rest
  | _ => readShort cs

def isBare (c : Char) : Bool := c.isAlphanum || c == '_' || c == '-'

def readSimpleKey (cs : List Char) : Option (Read String) :=
  match cs with
  | '"' :: _ => readShort cs
  | '\x27' :: _ => readShort cs
  | _ =>
    let name := cs.takeWhile isBare
    if name.isEmpty then none else some ⟨String.ofList name, cs.dropWhile isBare⟩

def readKey : Nat → List Char → Option (Read (List String))
  | 0, _ => none
  | rounds + 1, cs => do
    let first ← readSimpleKey (skipBlanks cs)
    match skipBlanks first.rest with
    | '.' :: rest => do
      let more ← readKey rounds rest
      return ⟨first.value :: more.value, more.rest⟩
    | rest => return ⟨[first.value], rest⟩

/-- Items up to the end of a list. A comma may stand before it. -/
def readItems (item : List Char → Option (Read Item)) : Nat → List Char → Option (Read (List Item))
  | 0, _ => none
  | rounds + 1, cs =>
    match skipLines cs.length cs with
    | ']' :: rest => some ⟨[], rest⟩
    | cs => do
      let first ← item cs
      match skipLines first.rest.length first.rest with
      | ',' :: rest =>
        let more ← readItems item rounds rest
        return ⟨first.value :: more.value, more.rest⟩
      | ']' :: rest => return ⟨[first.value], rest⟩
      | _ => none

def readEntry (item : List Char → Option (Read Item)) (cs : List Char) :
    Option (Read (List String × Item)) := do
  let key ← readKey (cs.length + 1) cs
  match key.rest with
  | '=' :: rest => do
    let found ← item (skipBlanks rest)
    return ⟨(key.value, found.value), found.rest⟩
  | _ => none

def readClosed (item : List Char → Option (Read Item)) :
    Nat → Members → List Char → Option (Read Members)
  | 0, _, _ => none
  | rounds + 1, members, cs => do
    let entry ← readEntry item cs
    let members ← members.add entry.value.1 entry.value.2
    match skipBlanks entry.rest with
    | ',' :: rest => readClosed item rounds members rest
    | '\x7d' :: rest => return ⟨members, rest⟩
    | _ => none

/-- An item of at most so many levels. -/
def readItem : Nat → List Char → Option (Read Item)
  | 0, _ => none
  | levels + 1, cs =>
    match cs with
    | '[' :: rest => do
      let found ← readItems (readItem levels) (rest.length + 1) rest
      return ⟨.list found.value, found.rest⟩
    | '\x7b' :: rest =>
      match skipBlanks rest with
      | '\x7d' :: rest => some ⟨.table .closed [], rest⟩
      | _ => do
        let found ← readClosed (readItem levels) (rest.length + 1) [] rest
        return ⟨.table .closed found.value, found.rest⟩
    | _ => do
      let found ← readText cs
      return ⟨.text found.value, found.rest⟩

def deepest : Nat := 80

/-- The path of a heading, behind its bracket. A heading of a list of tables is not read. -/
def readHeading (cs : List Char) : Option (Read (List String)) := do
  let path ← readKey (cs.length + 1) cs
  match path.rest with
  | ']' :: rest => return ⟨path.value, rest⟩
  | _ => none

def readDocument : Nat → List String → Members → List Char → Option Members
  | 0, _, _, _ => none
  | rounds + 1, path, members, cs =>
    match skipLines cs.length cs with
    | [] => some members
    | '[' :: rest => do
      let heading ← readHeading rest
      let members ← members.openTable heading.value
      readDocument rounds heading.value members (← endOfLine? heading.rest)
    | cs => do
      let entry ← readEntry (readItem deepest) cs
      let members ← members.addAt path entry.value.1 entry.value.2
      readDocument rounds path members (← endOfLine? entry.rest)

/-- The items of a whole text, if it can be read. A mark of byte order may stand in front. -/
def read? (source : String) : Option Members :=
  let cs := match source.toList with
    | '\ufeff' :: rest => rest
    | cs => cs
  readDocument (cs.length + 2) [] [] cs

end Realms.Toml
