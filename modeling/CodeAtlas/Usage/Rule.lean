import CodeAtlas.Usage.Basic
import CodeAtlas.Usage.Frame
import CodeAtlas.Usage.Literal

/-!
# Rules

A rule recognises one way of using a symbol: a frame around it, and sometimes a test of the place where it
stands. Rules are tried in order, and the first one that accepts an occurrence decides its kind and its
label. The last rule accepts every mention outside of string literals.

A rule has to be made for its symbol first, and a symbol may be too long for that. A rule that cannot be made
is left out, and the others are tried as before.
-/

namespace CodeAtlas

open Text (Cursor Matcher)

/-- One way of using a symbol. -/
structure UsageRule where
  kind : UsageKind
  /-- The usage in words. -/
  label : String
  frame : Frame
  /-- Does the place of the symbol fit? -/
  accepts : Site → Bool

/-! ### The symbol -/

/-- The edge of a word where a name character demands one. -/
def edgeBeside (c : Option Char) : Matcher :=
  if c.any Text.isNameChar then Matcher.boundary else Matcher.empty

/-- The symbol, standing as a word of its own on each side where it has a name character. -/
def symbolMatcher (symbol : List Char) : Matcher :=
  Matcher.all [edgeBeside symbol.head?, Matcher.chars symbol, edgeBeside symbol.getLast?]

/-! ### Places -/

namespace Site

/-- What stands before the symbol, last character first, without blanks next to the symbol. -/
def leading (s : Site) : List Char :=
  s.start.before.dropWhile Text.isBlank

/-- Is the next character that is not blank no opening parenthesis? -/
def notCalled (s : Site) : Bool :=
  (Text.trimStart s.stop.after).head? ≠ some '('

/-- Is the symbol outside of string literals? -/
def outsideLiteral (s : Site) : Bool :=
  CodeAtlas.outsideLiteral s.start.before.reverse

/-- The words after which a name is declared or constructed, not called. -/
def declarators : List String := ["function", "fn", "def", "func", "new"]

/-- The word before the symbol, without stars at its end. -/
def wordBefore (s : Site) : List Char :=
  ((s.leading.takeWhile fun c => Text.isNameChar c || c = '*').dropWhile (· = '*')).reverse

/-- Is the symbol neither a member nor the name of a declaration? -/
def notMember (s : Site) : Bool :=
  s.leading.head? ≠ some '.' && !(List.isPrefixOf [':', ':'] s.leading) &&
    !declarators.contains (String.ofList s.wordBefore)

end Site

/-! ### The rules in order -/

namespace UsageRule

open Text.Matcher

/-- Is the character part of an identifier? -/
def isIdentifierChar (c : Char) : Bool := Text.isWord c || c = '$'

/-- Type arguments, if there are any, and an opening parenthesis. -/
def callTrail : Matcher :=
  all [blanks, optional (all [text "<", longest (· ≠ '>'), text ">"]), blanks, text "("]

/-- A symbol inside the braces of an import. -/
def namedImport : UsageRule :=
  { kind := .imported
    label := "module import"
    frame :=
      { lead := all [
          lineStart, blanks, text "import", blanks₁,
          optional (all [text "type", blanks₁]),
          optional (all [longest₁ isIdentifierChar, blanks, text ",", blanks]),
          text "\x7b", lazily (· ≠ '\x7d')]
        trail := empty }
    accepts := fun _ => true }

/-- A symbol that names a whole imported module or its main value. -/
def wholeImport : UsageRule :=
  { kind := .imported
    label := "module import"
    frame :=
      { lead := all [
          lineStart, blanks, text "import", someBlanks₁,
          optional (all [text "type", someBlanks₁]),
          optional (all [text "*", blanks₁, text "as", someBlanks₁])]
        trail := all [blanks, any [text ",", all [boundary, text "from", boundary]]] }
    accepts := fun _ => true }

/-- A symbol bound to a module that is asked for by a call. -/
def requiredImport : UsageRule :=
  { kind := .imported
    label := "module import"
    frame :=
      { lead := all [boundary, words ["const", "let", "var"], someBlanks₁]
        trail := all [blanks, text "=", blanks, text "require", blanks, text "("] }
    accepts := fun _ => true }

/-- A symbol imported from a module named before it. -/
def fromImport : UsageRule :=
  { kind := .imported
    label := "module import"
    frame :=
      { lead := all [
          lineStart, blanks, text "from", blanks₁, longest₁ fun c => !Text.isBlank c, blanks₁,
          text "import", someBlanks₁, lazily (· ≠ '#')]
        trail := empty }
    accepts := fun _ => true }

/-- A symbol on a path that is brought into scope. -/
def useImport : UsageRule :=
  { kind := .imported
    label := "module import"
    frame :=
      { lead := all [
          lineStart, blanks,
          optional (all [
            text "pub", optional (all [text "(", longest (· ≠ ')'), text ")"]), blanks₁]),
          text "use", someBlanks₁, lazily (· ≠ ';')]
        trail := empty }
    accepts := fun _ => true }

/-- A symbol inside the braces of an export. -/
def namedExport : UsageRule :=
  { kind := .exported
    label := "module export"
    frame :=
      { lead := all [
          lineStart, blanks, text "export", blanks, text "\x7b", lazily (· ≠ '\x7d')]
        trail := empty }
    accepts := fun _ => true }

/-- A symbol that is the main value of a module. -/
def defaultExport : UsageRule :=
  { kind := .exported
    label := "module export"
    frame :=
      { lead := all [
          lineStart, blanks, text "export", blanks₁, text "default", someBlanks₁,
          optional (all [text "async", someBlanks₁]),
          optional (any [
            all [text "function", someBlanks, optional (text "*"), someBlanks],
            all [text "class", someBlanks₁]])]
        trail := empty }
    accepts := fun _ => true }

/-- A symbol that a module is set to. -/
def assignedExport : UsageRule :=
  { kind := .exported
    label := "module export"
    frame :=
      { lead := all [boundary, text "module.exports", blanks, text "=", someBlanks]
        trail := empty }
    accepts := fun _ => true }

/-- A call behind `new`. -/
def construction : UsageRule :=
  { kind := .constructor
    label := "constructor call"
    frame := { lead := all [boundary, text "new", someBlanks₁], trail := callTrail }
    accepts := fun _ => true }

/-- A call of a member. -/
def memberCall : UsageRule :=
  { kind := .method
    label := "method invocation"
    frame := { lead := words ["?.", ".", "::"], trail := callTrail }
    accepts := fun _ => true }

/-- A member that is not called. -/
def memberRead : UsageRule :=
  { kind := .property
    label := "property access"
    frame := { lead := words ["?.", "."], trail := empty }
    accepts := Site.notCalled }

/-- A call of something that is no member. -/
def bareCall : UsageRule :=
  { kind := .call
    label := "function call"
    frame := { lead := empty, trail := all [blanks, text "("] }
    accepts := Site.notMember }

/-- Any mention outside of string literals. -/
def mention : UsageRule :=
  { kind := .call
    label := "direct usage"
    frame := { lead := empty, trail := empty }
    accepts := Site.outsideLiteral }

/-- All rules, the most particular first. -/
def all : List UsageRule :=
  [namedImport, wholeImport, requiredImport, fromImport, useImport,
   namedExport, defaultExport, assignedExport,
   construction, memberCall, memberRead, bareCall, mention]

/-- Can a rule be made for a symbol? -/
abbrev Capacity := (rule : UsageRule) → (symbol : List Char) → Bool

/-- Every rule can be made for every symbol. -/
def unlimited : Capacity := fun _ _ => true

/-- The rules that can be made for a symbol, the most particular first. -/
def made (fits : Capacity) (symbol : List Char) : List UsageRule :=
  all.filter fun rule => fits rule symbol

/-- The places on a line where a rule recognises the symbol. -/
def sites (rule : UsageRule) (symbol line : List Char) : List Site :=
  (rule.frame.sites (symbolMatcher symbol) line).filter rule.accepts

end UsageRule

end CodeAtlas
