import LetLang.Encoding.Basic
import LetLang.Token.Kind

/-!
# Lexemes

A lexeme is what the longest token at the front of a text consists of, before a string
literal is decoded. Words and numbers take all the bytes they can; a zero is a number by
itself and starts no longer one; a string literal runs to the next double quote or, without
one, to the end of the text. The main statement is that reading a lexeme loses no byte.
-/

namespace LetLang

/-- The bytes of one token, by the way they are delimited. -/
inductive Lexeme where
  /-- No bytes are left. -/
  | finish
  | word (bytes : List Byte)
  | number (bytes : List Byte)
  /-- A string literal, and whether its closing quote is present. -/
  | literal (body : List Byte) (closed : Bool)
  /-- A single byte: a mark or a byte without a meaning. -/
  | single (byte : Byte)
  deriving DecidableEq, Repr

namespace Lexeme

/-- The bytes of a lexeme but for the closing quote of a string literal. -/
def body : Lexeme → List Byte
  | .finish => []
  | .word bytes => bytes
  | .number bytes => bytes
  | .literal inside _ => Byte.quote :: inside
  | .single byte => [byte]

/-- The closing quote of a string literal that has one. -/
def closing : Lexeme → List Byte
  | .literal _ true => [Byte.quote]
  | _ => []

def span (lexeme : Lexeme) : List Byte :=
  lexeme.body ++ lexeme.closing

/-- Read the lexeme at the front of a text that starts with no gap, and what follows it. -/
def read : List Byte → Lexeme × List Byte
  | [] => (.finish, [])
  | first :: rest =>
      if first.startsWord then
        (.word (first :: rest.takeWhile (·.continuesWord)), rest.dropWhile (·.continuesWord))
      else if first = Byte.zero then (.number [first], rest)
      else if first.isDigit then
        (.number (first :: rest.takeWhile (·.isDigit)), rest.dropWhile (·.isDigit))
      else if first = Byte.quote then
        let inside := rest.takeWhile (· != Byte.quote)
        match rest.dropWhile (· != Byte.quote) with
        | [] => (.literal inside false, [])
        | _ :: after => (.literal inside true, after)
      else (.single first, rest)

def kind : Lexeme → Kind
  | .finish => .finish
  | .word bytes => .ofWord (latinText bytes)
  | .number _ => .number
  | .literal _ _ => .string
  | .single byte => .ofMark byte

/-- The text of the token that a lexeme makes. Only the body of a string literal depends
on the decoder, and only it can fail. -/
def text (decoder : Decoder) : Lexeme → Except Encoding.Fault String
  | .finish => .ok Kind.finish.name
  | .word bytes => .ok (latinText bytes)
  | .number bytes => .ok (latinText bytes)
  | .literal inside _ => decoder.decode inside
  | .single byte => .ok (latinText [byte])

/-- What a search for a byte stops at is that byte. -/
theorem dropWhile_ne_head {text after : List Byte} {byte stop : Byte}
    (hdrop : text.dropWhile (· != stop) = byte :: after) : byte = stop := by
  have hhead := List.head?_dropWhile_not (· != stop) text
  rw [hdrop] at hhead
  simpa using hhead

/-- A lexeme and what follows it make up the text. -/
theorem span_append_read (text : List Byte) : (read text).1.span ++ (read text).2 = text := by
  cases text with
  | nil => rfl
  | cons first rest =>
      rw [read]
      split
      next => simp [span, body, closing]
      next =>
        split
        next => simp [span, body, closing]
        next =>
          split
          next => simp [span, body, closing]
          next =>
            split
            next hquote =>
              have hsplit := rest.takeWhile_append_dropWhile (p := (· != Byte.quote))
              split
              next hdrop =>
                rw [hdrop, List.append_nil] at hsplit
                simp [span, body, closing, hquote, hsplit]
              next byte after hdrop =>
                obtain rfl := dropWhile_ne_head hdrop
                rw [hdrop] at hsplit
                simp [span, body, closing, hquote, hsplit]
            next => simp [span, body, closing]

/-- A text that is not empty starts with a lexeme that is not empty. -/
theorem body_read_ne_nil {text : List Byte} (htext : text ≠ []) : (read text).1.body ≠ [] := by
  cases text with
  | nil => exact absurd rfl htext
  | cons first rest =>
      rw [read]
      split
      next => simp [body]
      next =>
        split
        next => simp [body]
        next =>
          split
          next => simp [body]
          next =>
            split
            next => split <;> simp [body]
            next => simp [body]

end Lexeme

end LetLang
