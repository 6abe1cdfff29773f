import CodeAtlas.Usage.Rule

/-!
# Scopes

Which function or class a line opens, as far as the line shows it. A line lies in the scope that it opens
itself or else in the one that was opened last above it.
-/

namespace CodeAtlas

open Text (Cursor Matcher)

namespace Scope

open Text.Matcher

/-- May the character start an identifier? -/
def isIdentifierStart (c : Char) : Bool := c.isAlpha || c = '_' || c = '$'

/-- An identifier. -/
def identifier : Matcher :=
  Matcher.all [one isIdentifierStart, longest UsageRule.isIdentifierChar]

/-- A type behind a colon, up to a character of a given class. -/
def typeUpTo (stop : Char → Bool) : Matcher :=
  optional (Matcher.all [text ":", longest₁ fun c => !stop c])

/-- Parameters in parentheses. -/
def parameters : Matcher :=
  Matcher.all [text "(", longest (· ≠ ')'), text ")"]

/-- A name behind a word that declares it. -/
def declaration : Frame :=
  { lead := Matcher.all [
      boundary,
      Matcher.any [
        Matcher.all [text "function", blanks, text "*", blanks₁],
        Matcher.all [
          words ["function", "class", "interface", "struct", "enum", "trait", "def", "fn", "func"],
          blanks₁]]]
    trail := empty }

/-- A name bound to a function. -/
def binding : Frame :=
  { lead := Matcher.all [boundary, words ["const", "let", "var"], blanks₁]
    trail := Matcher.all [
      blanks, typeUpTo (· = '='), text "=", blanks,
      optional (Matcher.all [text "async", blanks₁]),
      Matcher.any [
        Matcher.all [text "function", boundary],
        Matcher.all [parameters, blanks, typeUpTo (· = '='), text "=>"],
        Matcher.all [identifier, blanks, text "=>"]]] }

/-- The words that may stand before the name of a method. -/
def modifiers : List String :=
  ["public", "private", "protected", "static", "async", "override", "get", "set"]

/-- The name of a method in front of its parameters and its opening brace. -/
def method : Frame :=
  { lead := Matcher.all [
      lineStart, blanks,
      fun c => repeated (Matcher.all [words modifiers, blanks₁]) c.after.length c]
    trail := Matcher.all [
      blanks, parameters, blanks,
      typeUpTo fun c => c = '\x7b' || c = '=' || c = ';', text "\x7b"] }

/-- The words that look like the name of a method and are none. -/
def controlWords : List String :=
  ["if", "for", "while", "switch", "catch", "return", "function", "else", "do", "with"]

/-- The first name that a frame shows on a line. -/
def first? (frame : Frame) (line : List Char) : Option String :=
  (frame.sites identifier line).head?.map fun site => String.ofList site.text

/-- The name that a line declares. -/
def declared? (line : List Char) : Option String :=
  first? declaration line <|> first? binding line <|>
    (first? method line).filter fun name => !controlWords.contains name

/-- The scope of each line of a text, where `outer` is the scope before it. -/
def ofLines : (outer : Option String) → List (List Char) → List (Option String)
  | _, [] => []
  | outer, line :: rest =>
    let scope := declared? line <|> outer
    scope :: ofLines scope rest

end Scope

end CodeAtlas
