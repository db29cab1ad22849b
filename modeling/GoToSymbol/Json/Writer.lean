import GoToSymbol.Value.Basic
import GoToSymbol.Text.Quoted

namespace GoToSymbol.Json

open Text

def unitEscape (n : Nat) : List Char := '\\' :: 'u' :: hexDigits 4 n

/-- A character inside a string: everything outside printable ASCII is escaped by its code units. -/
def escapeChar (c : Char) : List Char :=
  let n := c.toNat
  if c = '\x22' ∨ c = '\\' then ['\\', c]
  else if c = '\n' then ['\\', 'n']
  else if c = '\r' then ['\\', 'r']
  else if c = '\t' then ['\\', 't']
  else if n = 8 then ['\\', 'b']
  else if n = 12 then ['\\', 'f']
  else if 0x20 ≤ n ∧ n < 0x7F then [c]
  else if n < 0x10000 then unitEscape n
  else unitEscape (0xD800 + (n - 0x10000) / 0x400) ++ unitEscape (0xDC00 + (n - 0x10000) % 0x400)

def string (s : String) : String :=
  "\x22" ++ String.ofList (s.toList.flatMap escapeChar) ++ "\x22"

def number (x : Float) : String :=
  if x.isNaN then "NaN"
  else if x.isInf then (if x < 0 then "-Infinity" else "Infinity")
  else Decimal.floatText x

mutual
/-- A value on one line. -/
def compact : Value → String
  | .null => "null"
  | .bool b => if b then "true" else "false"
  | .int n => toString n
  | .float x => number x
  | .text s => string s
  | .list items => "[" ++ compactItems "" items ++ "]"
  | .object members => "\x7b" ++ compactMembers "" members ++ "\x7d"

def compactItems (before : String) : List Value → String
  | [] => ""
  | v :: vs => before ++ compact v ++ compactItems ", " vs

def compactMembers (before : String) : List (String × Value) → String
  | [] => ""
  | m :: ms => before ++ compactMember m ++ compactMembers ", " ms

def compactMember : String × Value → String
  | (k, v) => string k ++ ": " ++ compact v
end

def spaces (n : Nat) : String := String.ofList (List.replicate n ' ')

mutual
/-- A value over several lines, two more spaces at each level; what is empty stays on one line. -/
def indented (level : Nat) : Value → String
  | .list [] => "[]"
  | .list (v :: vs) =>
    "[" ++ indentedItems (level + 1) "\n" (v :: vs) ++ "\n" ++ spaces (2 * level) ++ "]"
  | .object [] => "\x7b\x7d"
  | .object (m :: ms) =>
    "\x7b" ++ indentedMembers (level + 1) "\n" (m :: ms) ++ "\n" ++ spaces (2 * level) ++ "\x7d"
  | .null => "null"
  | .bool b => if b then "true" else "false"
  | .int n => toString n
  | .float x => number x
  | .text s => string s

def indentedItems (level : Nat) (before : String) : List Value → String
  | [] => ""
  | v :: vs =>
    before ++ spaces (2 * level) ++ indented level v ++ indentedItems level ",\n" vs

def indentedMembers (level : Nat) (before : String) : List (String × Value) → String
  | [] => ""
  | m :: ms =>
    before ++ spaces (2 * level) ++ indentedMember level m ++ indentedMembers level ",\n" ms

def indentedMember (level : Nat) : String × Value → String
  | (k, v) => string k ++ ": " ++ indented level v
end

example : string "a\"é" = "\"a\\\"\\u00e9\"" := by decide

end GoToSymbol.Json
