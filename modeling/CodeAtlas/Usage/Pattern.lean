import CodeAtlas.Usage.Rule

/-!
# What a usage is part of

The text around an occurrence decides in which words it is described; where nothing in particular is seen,
the words are those of the rule that found it.
-/

namespace CodeAtlas

open Text (Cursor Matcher)

namespace UsagePattern

open Text.Matcher

/-- Does a text, last character first, end in a word of its own? -/
def endsInWord (word reversed : List Char) : Bool :=
  match word.reverse.isPrefixOf? reversed with
  | some rest => !rest.head?.any Text.isNameChar
  | none => false

/-- Is there an equals sign in the text that is part of no comparison and no arrow? The character before
the text is given. -/
def hasAssignment (previous : Char) : List Char → Bool
  | [] => false
  | c :: rest =>
    (c = '=' && !("=!<>".toList.contains previous) && !(rest.head?.any "=>".toList.contains)) ||
      hasAssignment c rest

/-- The words that open a branch or a loop. -/
def branchWords : List String :=
  ["if", "else", "for", "while", "switch", "do", "case", "elif", "match", "loop"]

/-- A branch or a loop at the start of a text. -/
def branch : Matcher :=
  Matcher.all [
    lineStart, optional (Matcher.all [text "\x7d", blanks]), words branchWords, boundary]

/-- The words for an occurrence on a line. -/
def describe (kind : UsageKind) (label : String) (line : List Char) (site : Site) : String :=
  let trimmed := Text.trimStart line
  let leading := site.leading
  if kind = .imported || kind = .exported then label
  else if trimmed.takeWhile Text.isNameChar = "return".toList then "return statement"
  else if endsInWord "await".toList leading then "async call"
  else if hasAssignment ' ' leading.reverse then "variable assignment"
  else if !(branch (Cursor.start trimmed)).isEmpty || leading.head? = some '?' then "conditional/loop"
  else label

end UsagePattern

end CodeAtlas
