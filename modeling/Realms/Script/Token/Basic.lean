import Realms.Text.Identifier

/-!
Tokens of a script. A token holds the text in front of it and the text behind it, so that a reader
can take the same characters again as a regular expression or as element text.
-/
namespace Realms.Script

/-- What one token says. A reserved word is a word like any other: the grammar asks for it by its
name, since most of them are names in some place. -/
inductive Lexeme where
  | word (name : String) (escaped : Bool)
  | privateName (name : String)
  | mark (text : String)
  | text (value : String) (wellFormed : Bool)
  | number
  | bigNumber
  | pattern
  /-- A piece of a template: up to its end, or up to the next substitution. -/
  | template (last : Bool) (valid : Bool)
  | ending
  | malformed
deriving DecidableEq, Repr, Inhabited

structure Token where
  lexeme : Lexeme
  /-- A line ends between the token before and this one. -/
  newLine : Bool
  start : List Char
  rest : List Char
  /-- The token can be used, but its spelling breaks a rule. -/
  flawed : Bool
deriving Inhabited

/-- The characters that end a line, in comments and before a restricted word. -/
def isLineEnd (c : Char) : Bool :=
  c == '\n' || c == '\r' || c == '\u2028' || c == '\u2029'

def isBlank (c : Char) : Bool :=
  c == ' ' || c == '\t' || c == '\x0b' || c == '\x0c' || c == '\x85' || c == '\xa0' ||
    c == '\ufeff' || c == '\u1680' || ('\u2000' ≤ c && c ≤ '\u200b') || c == '\u202f' ||
    c == '\u205f' || c == '\u3000'

/-- Words that never name a binding, whatever surrounds them. -/
def reservedWords : List String :=
  ["break", "case", "catch", "class", "const", "continue", "debugger", "default", "delete", "do",
    "else", "enum", "export", "extends", "false", "finally", "for", "function", "if", "import",
    "in", "instanceof", "new", "null", "return", "super", "switch", "this", "throw", "true",
    "try", "typeof", "var", "void", "while", "with"]

/-- Words that name a binding only outside strict code. All modules are strict. -/
def strictWords : List String :=
  ["implements", "interface", "let", "package", "private", "protected", "public", "static"]

/-- Words that no module may declare or export as a local name. -/
def isKeyword (name : String) : Bool :=
  reservedWords.contains name || name == "await" || name == "yield"

def languageWords : List String :=
  ["abstract", "accessor", "any", "as", "assert", "asserts", "async", "await", "bigint", "boolean",
    "break", "case", "catch", "class", "const", "constructor", "continue", "debugger", "declare",
    "default", "defer", "delete", "do", "else", "enum", "export", "extends", "false", "finally", "for",
    "from", "function", "get", "global", "if", "implements", "import", "in", "infer", "instanceof",
    "interface", "intrinsic", "is", "keyof", "let", "meta", "module", "namespace", "never", "new",
    "null", "number", "object", "of", "out", "override", "package", "private", "protected", "public",
    "readonly", "require", "return", "satisfies", "set", "source", "static", "string", "super",
    "switch", "symbol", "target", "this", "throw", "true", "try", "type", "typeof", "undefined",
    "unique", "unknown", "using", "var", "void", "while", "with", "yield"]

/-- Whether a token is a word of the language with an escape in it. -/
def Token.isDisguised (token : Token) : Bool :=
  match token.lexeme with
  | .word name escaped => escaped && languageWords.contains name
  | _ => false

end Realms.Script
