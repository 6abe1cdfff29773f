import CodeAtlas.Text.Search
import CodeAtlas.Usage.Basic

/-!
# The kind of usage that a relationship implies

A relationship is searched, without regard to case, for the words that name a kind. The words are ASCII,
and no other letter turns into a part of one of them in lower case, so that lowering ASCII letters is
enough.
-/

namespace CodeAtlas

/-- The words to look for, with the kinds that they imply, in the order in which they are tried. -/
def UsageKind.relationshipWords : List (String × UsageKind) :=
  [("import", .imported), ("export", .exported), ("method", .method), ("property", .property),
   ("constructor", .constructor), ("new", .constructor)]

/-- The kind of usage that a relationship implies; one without any of the words counts as a call. -/
def UsageKind.ofRelationship (label : String) : UsageKind :=
  let lower := label.toList.map Char.toLower
  ((relationshipWords.find? fun (word, _) => Text.contains word.toList lower).map Prod.snd).getD .call

end CodeAtlas
