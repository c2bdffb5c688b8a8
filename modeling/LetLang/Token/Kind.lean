import LetLang.Byte

/-!
# Kinds of tokens

A token is a keyword, a mark, a name, a number, a string, a byte that fits none of
these, or the end of the input. The set is closed, and each kind has a name in
capitals by which listings show it.
-/

namespace LetLang

/-- The reserved words. A word that is not one of these is an identifier. -/
inductive Keyword where
  | let | while | int | «class» | constructor | function | method | field | static | var
  | char | boolean | void | true | false | null | this | do | if | else | return
  deriving DecidableEq, Repr

namespace Keyword

def all : List Keyword :=
  [.let, .while, .int, .class, .constructor, .function, .method, .field, .static, .var,
    .char, .boolean, .void, .true, .false, .null, .this, .do, .if, .else, .return]

def word : Keyword → String
  | .let => "let"
  | .while => "while"
  | .int => "int"
  | .class => "class"
  | .constructor => "constructor"
  | .function => "function"
  | .method => "method"
  | .field => "field"
  | .static => "static"
  | .var => "var"
  | .char => "char"
  | .boolean => "boolean"
  | .void => "void"
  | .true => "true"
  | .false => "false"
  | .null => "null"
  | .this => "this"
  | .do => "do"
  | .if => "if"
  | .else => "else"
  | .return => "return"

/-- The keyword that a word spells, if it spells one. -/
def ofWord? (word : String) : Option Keyword :=
  all.find? (·.word == word)

theorem mem_all (keyword : Keyword) : keyword ∈ all := by
  cases keyword <;> decide

end Keyword

/-- The characters that are tokens by themselves. -/
inductive Mark where
  | plus | minus | asterisk | slash | dot | and | or | not | greater | less | equals
  | leftParenthesis | rightParenthesis | leftBrace | rightBrace | leftBracket | rightBracket
  | semicolon | comma
  deriving DecidableEq, Repr

namespace Mark

def all : List Mark :=
  [.plus, .minus, .asterisk, .slash, .dot, .and, .or, .not, .greater, .less, .equals,
    .leftParenthesis, .rightParenthesis, .leftBrace, .rightBrace, .leftBracket, .rightBracket,
    .semicolon, .comma]

def byte : Mark → Byte
  | .plus => 0x2B
  | .minus => 0x2D
  | .asterisk => 0x2A
  | .slash => 0x2F
  | .dot => 0x2E
  | .and => 0x26
  | .or => 0x7C
  | .not => 0x7E
  | .greater => 0x3E
  | .less => 0x3C
  | .equals => 0x3D
  | .leftParenthesis => 0x28
  | .rightParenthesis => 0x29
  | .leftBrace => 0x7B
  | .rightBrace => 0x7D
  | .leftBracket => 0x5B
  | .rightBracket => 0x5D
  | .semicolon => 0x3B
  | .comma => 0x2C

def name : Mark → String
  | .plus => "PLUS"
  | .minus => "MINUS"
  | .asterisk => "ASTERISK"
  | .slash => "SLASH"
  | .dot => "DOT"
  | .and => "AND"
  | .or => "OR"
  | .not => "NOT"
  | .greater => "GT"
  | .less => "LT"
  | .equals => "EQ"
  | .leftParenthesis => "LPAREN"
  | .rightParenthesis => "RPAREN"
  | .leftBrace => "LBRACE"
  | .rightBrace => "RBRACE"
  | .leftBracket => "LBRACKET"
  | .rightBracket => "RBRACKET"
  | .semicolon => "SEMICOLON"
  | .comma => "COMMA"

/-- The mark that a byte is, if it is one. -/
def ofByte? (byte : Byte) : Option Mark :=
  all.find? (·.byte == byte)

theorem mem_all (mark : Mark) : mark ∈ all := by
  cases mark <;> decide

/-- Every mark is read back from its byte. -/
theorem ofByte?_byte (mark : Mark) : ofByte? mark.byte = some mark := by
  cases mark <;> decide

end Mark

/-- What a token is. -/
inductive Kind where
  /-- The end of the input. -/
  | finish
  /-- A byte that starts no token of another kind. -/
  | illegal
  | number
  | identifier
  | string
  | keyword (reserved : Keyword)
  | mark (sign : Mark)
  deriving DecidableEq, Repr

namespace Kind

def all : List Kind :=
  [.finish, .illegal, .number, .identifier, .string] ++
    Keyword.all.map .keyword ++ Mark.all.map .mark

/-- The name of a kind in listings. A keyword is shown by its word in capitals. -/
def name : Kind → String
  | .finish => "EOF"
  | .illegal => "ILLEGAL"
  | .number => "NUMBER"
  | .identifier => "IDENT"
  | .string => "STRING"
  | .keyword reserved => reserved.word.toUpper
  | .mark sign => sign.name

/-- The kind that a listing calls by this name. -/
def ofName? (name : String) : Option Kind :=
  all.find? (·.name == name)

/-- The kind of a whole word. -/
def ofWord (word : String) : Kind :=
  match Keyword.ofWord? word with
  | some reserved => .keyword reserved
  | none => .identifier

/-- The kind of a single byte that is not part of a longer token. -/
def ofMark (byte : Byte) : Kind :=
  match Mark.ofByte? byte with
  | some sign => .mark sign
  | none => .illegal

theorem mem_all (kind : Kind) : kind ∈ all := by
  cases kind with
  | keyword reserved => simp [all, Keyword.mem_all]
  | mark sign => simp [all, Mark.mem_all]
  | _ => simp [all]

end Kind

end LetLang
